import Mathlib.Data.List.GetD
import StagedGraph.Proofs.Building

/-!
# What a builder can rely on

The operations of a builder are data here (`Command`), and so is what they answer (`Reply`). A
command is legal for a program if it refers only to entries that are there; a sequence of commands
is legal if each of them is when its turn comes. An append or a seal may be refused, and then the
program is as it was.

Each accepted command is one of the operations that a program is built by (`perform_builds`). Such
an operation keeps who owns which block (`Builds.owned`), and of the entries that are there it
changes nothing but the end of one block and the seal of one function (`Builds.extends`). By
induction on the commands the same holds of whole histories, and every block has gained just the
statements that were appended to it, in order (`block_after`).
-/

namespace StagedGraph

variable {R H : Type}

/-! ### Commands -/

/-- An operation of a builder. -/
inductive Command (R H : Type) where
  | intern (s : String)
  | literal (v : Value R)
  | var (s : String)
  | neg (e : ExprId)
  | invoke (callee : Callee) (args : List ExprId)
  | native (n : Native R H)
  | block
  | func (name : String) (params : List Name)
  | append (b : BlockId) (s : Stmt)
  | appendBody (f : FuncId) (s : Stmt)
  | sealFunc (f : FuncId)
  | increment (x : Var) (add : NativeId)

/-- What the builder gets for a command. -/
inductive Reply where
  | name (x : Name)
  | expr (e : ExprId)
  | var (x : Var)
  | native (n : NativeId)
  | block (b : BlockId)
  | func (f : FuncId) (body : BlockId)
  | stmt (s : Stmt)
  | appended
  | refused (e : BuildError)
deriving DecidableEq

namespace Reply

/-- The numbers that the reply issues. A statement issues those of its expressions. -/
def issued : Reply → List ((t : Table) × Ref t)
  | expr e => [⟨.expr, e⟩]
  | var x => [⟨.expr, x.expr⟩]
  | native n => [⟨.native, n⟩]
  | block b => [⟨.block, b⟩]
  | func f body => [⟨.func, f⟩, ⟨.block, body⟩]
  | stmt s => s.exprs.map (⟨.expr, ·⟩)
  | _ => []

/-- The names in the reply. A name is issued again when its string is. -/
def names : Reply → List Name
  | name x => [x]
  | var x => [x.name]
  | _ => []

end Reply

namespace Program

/-- The number of entries in a table. -/
def size (p : Program R H) : Table → Nat
  | .expr => p.exprs.size
  | .block => p.blocks.size
  | .func => p.funcs.size
  | .native => p.natives.size

/-- The number refers to an entry. -/
def Has (p : Program R H) {t : Table} (r : Ref t) : Prop := r.index < p.size t

/-- The function that a block belongs to. -/
def owner (p : Program R H) (b : BlockId) : Option FuncId :=
  (p.blocks.getD b.index ⟨[], none⟩).owner

/-- Carries a command out. -/
def perform (p : Program R H) : Command R H → Reply × Program R H
  | .intern s => (.name (p.intern s).1, (p.intern s).2)
  | .literal v => (.expr (p.addExpr (.literal v)).1, (p.addExpr (.literal v)).2)
  | .var s => (.var (p.addVar s).1, (p.addVar s).2)
  | .neg e => (.expr (p.addExpr (.neg e)).1, (p.addExpr (.neg e)).2)
  | .invoke callee args =>
    (.expr (p.addExpr (.invoke callee args)).1, (p.addExpr (.invoke callee args)).2)
  | .native n => (.native (p.addNative n).1, (p.addNative n).2)
  | .block => (.block (p.addBlock none).1, (p.addBlock none).2)
  | .func name params =>
    let (f, q) := p.addFunc name params
    (.func f (q.func f).body, q)
  | .append b s =>
    match p.append b s with
    | .ok q => (.appended, q)
    | .error e => (.refused e, p)
  | .appendBody f s =>
    match p.appendBody f s with
    | .ok q => (.appended, q)
    | .error e => (.refused e, p)
  | .sealFunc f =>
    match p.sealFunc f with
    | .ok (s, q) => (.stmt s, q)
    | .error e => (.refused e, p)
  | .increment x add => (.stmt (p.increment x add).1, (p.increment x add).2)

/-- The program after these commands. -/
def after (p : Program R H) : List (Command R H) → Program R H
  | [] => p
  | k :: ks => (p.perform k).2.after ks

/-- What the builder gets for these commands, in order. -/
def replies (p : Program R H) : List (Command R H) → List Reply
  | [] => []
  | k :: ks => (p.perform k).1 :: (p.perform k).2.replies ks

end Program

namespace Command

/-- The command refers only to entries of the program. It is not asked that the builder of a function
is given away when the function is sealed: that is a property of the history (`SealsLast`), and
exactly without it there are commands that are refused for a seal. -/
def Legal (p : Program R H) : Command R H → Prop
  | neg e => p.HasExpr e
  | invoke callee args => p.HasCallee callee ∧ ∀ a ∈ args, p.HasExpr a
  | func _ params => ∀ x ∈ params, p.HasName x
  | append b s => p.HasBlock b ∧ p.HasStmt s
  | appendBody f s => p.HasFunc f ∧ p.HasStmt s
  | sealFunc f => p.HasFunc f
  | increment x add => p.HasName x.name ∧ p.HasExpr x.expr ∧ p.HasNative add
  | _ => True

/-- Each command refers only to entries that are there when its turn comes. -/
def AllLegal (p : Program R H) : List (Command R H) → Prop
  | [] => True
  | k :: ks => k.Legal p ∧ AllLegal (p.perform k).2 ks

instance (p : Program R H) : (k : Command R H) → Decidable (k.Legal p)
  | neg e => inferInstanceAs (Decidable (p.HasExpr e))
  | invoke callee args => inferInstanceAs (Decidable (p.HasCallee callee ∧ ∀ a ∈ args, p.HasExpr a))
  | func _ params => inferInstanceAs (Decidable (∀ x ∈ params, p.HasName x))
  | append b s => inferInstanceAs (Decidable (p.HasBlock b ∧ p.HasStmt s))
  | appendBody f s => inferInstanceAs (Decidable (p.HasFunc f ∧ p.HasStmt s))
  | sealFunc f => inferInstanceAs (Decidable (p.HasFunc f))
  | increment x add =>
    inferInstanceAs (Decidable (p.HasName x.name ∧ p.HasExpr x.expr ∧ p.HasNative add))
  | intern _ | literal _ | var _ | native _ | block => .isTrue trivial

instance decidableAllLegal (p : Program R H) : (ks : List (Command R H)) → Decidable (AllLegal p ks)
  | [] => .isTrue trivial
  | k :: ks =>
    have := decidableAllLegal (p.perform k).2 ks
    inferInstanceAs (Decidable (k.Legal p ∧ AllLegal (p.perform k).2 ks))

/-- The block and the statement that the command would append. -/
def appends? (p : Program R H) : Command R H → Option (BlockId × Stmt)
  | append b s => some (b, s)
  | appendBody f s => some ((p.func f).body, s)
  | _ => none

/-- What the command does append: nothing if it is refused. -/
def logged (p : Program R H) (k : Command R H) : List (BlockId × Stmt) :=
  if (p.perform k).1 = .appended then (k.appends? p).toList else []

/-- The statements that these commands append, in order, each with its block. -/
def log (p : Program R H) : List (Command R H) → List (BlockId × Stmt)
  | [] => []
  | k :: ks => logged p k ++ log (p.perform k).2 ks

/-- The statements of a log that go to a block. -/
def stmtsFor (b : BlockId) (log : List (BlockId × Stmt)) : List Stmt :=
  log.filterMap fun x => if x.1 = b then some x.2 else none

end Command

namespace Interner

variable (t : Interner) (s : String)

theorem size_le_intern : t.size ≤ (t.intern s).2.size := by
  rw [intern]
  split
  · exact Nat.le_refl _
  · simp [size]

/-- A name keeps its string. -/
theorem lookup_intern_of_lt {x : Name} (hx : x.index < t.size) :
    (t.intern s).2.lookup x = t.lookup x := by
  rw [intern]
  split
  · rfl
  · exact List.getD_append _ _ _ _ hx

variable {t} (ht : t.Coherent)
include ht

theorem Coherent.intern_lt : (t.intern s).1.index < (t.intern s).2.size :=
  (List.getElem?_eq_some_iff.1 ((ht.intern s _ _).1 (t.find?_intern s))).1

/-- A name is new, unless it is that of the string already. -/
theorem Coherent.lookup_of_intern_lt (h : (t.intern s).1.index < t.size) :
    t.lookup (t.intern s).1 = s := by
  rw [← t.lookup_intern_of_lt s h]
  exact ht.lookup_intern s

end Interner

namespace Program

variable {p q r : Program R H} {b c : BlockId} {e : ExprId} {f g : FuncId} {s : Stmt}

/-! ### Single operations -/

theorem lt_size_push {α : Type} (xs : Array α) (a : α) : xs.size < (xs.push a).size := by
  rw [Array.size_push]
  exact Nat.lt_succ_self _

theorem block_push (hb : p.HasBlock b) (c : BlockId) :
    (p.push b s).block c = p.block c ++ if c = b then [s] else [] := by
  simp only [block, push, Array.getD_eq_getD_getElem?, Array.getElem?_modify]
  by_cases h : c = b
  · subst h
    have hlt : c.index < p.blocks.size := hb
    simp [hlt]
  · have hne : b.index ≠ c.index := fun he => h (by cases c; cases b; cases he; rfl)
    simp [h, hne]

theorem owner_push (c : BlockId) : (p.push b s).owner c = p.owner c := by
  simp only [owner, push, Array.getD_eq_getD_getElem?, Array.getElem?_modify]
  split
  · cases p.blocks[c.index]? <;> rfl
  · rfl

theorem block_addBlock (o : Option FuncId) (c : BlockId) : (p.addBlock o).2.block c = p.block c := by
  simp only [block, addBlock, Array.getD_eq_getD_getElem?, Array.getElem?_push]
  split
  · next h => simp [h]
  · rfl

theorem owner_addBlock (o : Option FuncId) (c : BlockId) :
    (p.addBlock o).2.owner c = if c.index = p.blocks.size then o else p.owner c := by
  simp only [owner, addBlock, Array.getD_eq_getD_getElem?, Array.getElem?_push]
  split <;> rfl

/-- A block that was never issued belongs to no function. -/
theorem owner_of_size_le (h : p.blocks.size ≤ b.index) : p.owner b = none := by
  rw [owner, Array.getD_eq_getD_getElem?, Array.getElem?_eq_none h]
  rfl

/-- Only what stands in the table decides what a function of the program is. -/
theorem func_congr (hf : p.HasFunc f) (h : q.funcs[f.index]? = p.funcs[f.index]?) :
    q.func f = p.func f := by
  have hlt : f.index < p.funcs.size := hf
  rw [func, func, Array.getD_eq_getD_getElem?, Array.getD_eq_getD_getElem?, h,
    Array.getElem?_eq_getElem hlt]
  rfl

/-- The function that is added is the last, and its body is a block of its own. -/
theorem funcs_addFunc (p : Program R H) (name : String) (params : List Name) :
    (p.addFunc name params).2.funcs =
      p.funcs.push ⟨(p.intern name).1, params, ⟨p.blocks.size⟩, false⟩ := rfl

theorem func_addFunc (hf : p.HasFunc f) (name : String) (params : List Name) :
    (p.addFunc name params).2.func f = p.func f := by
  refine func_congr hf ?_
  rw [funcs_addFunc, Array.getElem?_push, if_neg (Nat.ne_of_lt hf)]

theorem func_addFunc_self (p : Program R H) (name : String) (params : List Name) :
    (p.addFunc name params).2.func ⟨p.funcs.size⟩ =
      ⟨(p.intern name).1, params, ⟨p.blocks.size⟩, false⟩ := by
  rw [func, funcs_addFunc, Array.getD_eq_getD_getElem?, Array.getElem?_push_size]
  rfl

theorem func_push (f : FuncId) : (p.push b s).func f = p.func f := by
  simp only [func, push, Array.size_modify]

/-- Sealing changes nothing but the seal of that function. -/
theorem func_markSealed (hg : p.HasFunc g) :
    (p.markSealed f).func g =
      { p.func g with isSealed := decide (g = f) || (p.func g).isSealed } := by
  have hlt : g.index < p.funcs.size := hg
  simp only [func, markSealed, Array.getD_eq_getD_getElem?, Array.getElem?_modify,
    Array.getElem?_eq_getElem hlt]
  by_cases h : g = f
  · subst h
    simp
  · have hne : f.index ≠ g.index := fun he => h (by cases f; cases g; cases he; rfl)
    simp [h, hne]

/-! ### Who owns which block -/

/-- The body of a function belongs to that function, and no other block belongs to it. -/
structure Owned (p : Program R H) : Prop where
  body : ∀ f, p.HasFunc f → p.HasBlock (p.func f).body ∧ p.owner (p.func f).body = some f
  owner : ∀ b f, p.owner b = some f → p.HasFunc f ∧ (p.func f).body = b

namespace Owned

/-- Functions do not share their bodies. -/
theorem body_injective (hp : p.Owned) (hf : p.HasFunc f) (hg : p.HasFunc g)
    (h : (p.func f).body = (p.func g).body) : f = g := by
  have hof := (hp.body f hf).2
  rw [h, (hp.body g hg).2] at hof
  exact (Option.some.inj hof).symm

theorem empty : (.empty : Program R H).Owned where
  body f hf := absurd hf (Nat.not_lt_zero _)
  owner b f h := by
    rw [owner_of_size_le (Nat.zero_le _)] at h
    cases h

theorem congr (hp : p.Owned) (hblocks : q.blocks = p.blocks) (hfuncs : q.funcs = p.funcs) :
    q.Owned := by
  have hfunc (f : FuncId) : q.func f = p.func f := by rw [func, func, hblocks, hfuncs]
  have howner (b : BlockId) : q.owner b = p.owner b := by rw [Program.owner, Program.owner, hblocks]
  refine ⟨fun f hf => ?_, fun b f h => ?_⟩
  · rw [HasFunc, hfuncs] at hf
    rw [HasBlock, hblocks, hfunc, howner]
    exact hp.body f hf
  · rw [howner] at h
    rw [HasFunc, hfuncs, hfunc]
    exact hp.owner b f h

theorem push (hp : p.Owned) : (p.push b s).Owned := by
  refine ⟨fun f hf => ?_, fun c f h => ?_⟩
  · rw [func_push, owner_push, HasBlock, Program.push, Array.size_modify]
    exact hp.body f hf
  · rw [owner_push] at h
    rw [func_push]
    exact hp.owner c f h

theorem addBlock (hp : p.Owned) : (p.addBlock none).2.Owned := by
  have hfunc {f : FuncId} (hf : p.HasFunc f) : (p.addBlock none).2.func f = p.func f :=
    func_congr hf rfl
  refine ⟨fun f (hf : p.HasFunc f) => ?_, fun b f h => ?_⟩
  · obtain ⟨hbody, howner⟩ := hp.body f hf
    rw [hfunc hf, owner_addBlock, if_neg (Nat.ne_of_lt hbody)]
    exact ⟨Nat.lt_of_lt_of_eq (Nat.lt_succ_of_lt hbody) (Array.size_push _).symm, howner⟩
  · rw [owner_addBlock] at h
    split at h
    · cases h
    · obtain ⟨hf, hbody⟩ := hp.owner b f h
      exact ⟨hf, (hfunc hf).symm ▸ hbody⟩

theorem addFunc (hp : p.Owned) (name : String) (params : List Name) :
    (p.addFunc name params).2.Owned := by
  have howner (b : BlockId) : (p.addFunc name params).2.owner b =
      if b.index = p.blocks.size then some ⟨p.funcs.size⟩ else p.owner b :=
    owner_addBlock _ b
  have hsize : (p.addFunc name params).2.blocks.size = p.blocks.size + 1 := Array.size_push _
  have hfuncs : (p.addFunc name params).2.funcs.size = p.funcs.size + 1 := Array.size_push _
  refine ⟨fun f hf => ?_, fun b f h => ?_⟩
  · rw [HasBlock, hsize]
    rcases Nat.lt_succ_iff_lt_or_eq.1 (Nat.lt_of_lt_of_eq hf hfuncs) with hlt | heq
    · obtain ⟨hbody, hof⟩ := hp.body f hlt
      rw [func_addFunc hlt, howner, if_neg (Nat.ne_of_lt hbody)]
      exact ⟨Nat.lt_succ_of_lt hbody, hof⟩
    · obtain rfl : f = ⟨p.funcs.size⟩ := by cases f; cases heq; rfl
      rw [func_addFunc_self, howner, if_pos rfl]
      exact ⟨Nat.lt_succ_self _, rfl⟩
  · rw [howner] at h
    rw [HasFunc, hfuncs]
    split at h
    · next hb =>
      cases h
      rw [func_addFunc_self]
      exact ⟨Nat.lt_succ_self _, by cases b; cases hb; rfl⟩
    · obtain ⟨hf, hbody⟩ := hp.owner b f h
      rw [func_addFunc hf]
      exact ⟨Nat.lt_succ_of_lt hf, hbody⟩

theorem markSealed (hp : p.Owned) : (p.markSealed f).Owned := by
  have hfuncs : (p.markSealed f).funcs.size = p.funcs.size := Array.size_modify
  refine ⟨fun g hg => ?_, fun b g h => ?_⟩
  · rw [HasFunc, hfuncs] at hg
    rw [func_markSealed hg]
    exact hp.body g hg
  · obtain ⟨hg, hbody⟩ := hp.owner b g h
    rw [HasFunc, hfuncs, func_markSealed hg]
    exact ⟨hg, hbody⟩

end Owned

theorem Builds.owned (h : p.Builds q) (hp : p.Owned) : q.Owned := by
  cases h with
  | intern | literal | var | neg | invoke | native | increment => exact hp.congr rfl rfl
  | block => exact hp.addBlock
  | func name _ => exact hp.addFunc name _
  | append _ _ h => exact append_eq_push h ▸ hp.push
  | appendBody _ _ h => exact appendBody_eq_push h ▸ hp.push
  | sealFunc _ h => exact sealFunc_eq_markSealed h ▸ hp.markSealed

theorem Built.owned (hp : p.Built) : p.Owned := by
  induction hp with
  | refl => exact .empty
  | tail _ h ih => exact h.owned ih

/-- An operation on a program asks its interner for one name at most. -/
theorem Builds.interner_cases (h : p.Builds q) :
    q.interner = p.interner ∨ ∃ s, q.interner = (p.interner.intern s).2 := by
  cases h with
  | intern s => exact .inr ⟨s, rfl⟩
  | var s => exact .inr ⟨s, rfl⟩
  | func name _ => exact .inr ⟨name, rfl⟩
  | literal | neg | invoke | native | block | increment => exact .inl rfl
  | append _ _ h => exact .inl (append_eq_push h ▸ rfl)
  | appendBody _ _ h => exact .inl (appendBody_eq_push h ▸ rfl)
  | sealFunc _ h => exact .inl (sealFunc_eq_markSealed h ▸ rfl)

/-- The names of a program and their strings stay in step. -/
theorem Built.interner_coherent (hp : p.Built) : p.interner.Coherent := by
  induction hp with
  | refl => exact Interner.coherent_empty
  | tail _ h ih =>
    rcases h.interner_cases with hsame | ⟨s, hs⟩
    · exact hsame ▸ ih
    · exact hs ▸ ih.intern s

/-! ### What stays -/

/-- The second program has all that the first has. Of its functions some may have been sealed since,
and its blocks may have grown, but not the body of a function that was sealed. -/
structure Extends (p q : Program R H) : Prop where
  size : ∀ t, p.size t ≤ q.size t
  names : p.interner.size ≤ q.interner.size
  text : ∀ x, p.HasName x → q.text x = p.text x
  expr : ∀ e, p.HasExpr e → q.expr e = p.expr e
  native : ∀ n, p.HasNative n → q.native n = p.native n
  owner : ∀ b, p.HasBlock b → q.owner b = p.owner b
  func : ∀ f, p.HasFunc f → q.func f = { p.func f with isSealed := (q.func f).isSealed }
  sealed : ∀ f, p.HasFunc f → (p.func f).isSealed = true →
    (q.func f).isSealed = true ∧ q.block (p.func f).body = p.block (p.func f).body

namespace Extends

theorem refl (p : Program R H) : p.Extends p where
  size _ := Nat.le_refl _
  names := Nat.le_refl _
  text _ _ := rfl
  expr _ _ := rfl
  native _ _ := rfl
  owner _ _ := rfl
  func _ _ := rfl
  sealed _ _ h := ⟨h, rfl⟩

theorem has (h : p.Extends q) {t : Table} {i : Ref t} (hi : p.Has i) : q.Has i :=
  Nat.lt_of_lt_of_le hi (h.size t)

theorem hasName (h : p.Extends q) {x : Name} (hx : p.HasName x) : q.HasName x :=
  Nat.lt_of_lt_of_le hx h.names

theorem body (h : p.Extends q) (hf : p.HasFunc f) : (q.func f).body = (p.func f).body := by
  rw [h.func f hf]

theorem trans (hpq : p.Extends q) (hqr : q.Extends r) : p.Extends r where
  size t := Nat.le_trans (hpq.size t) (hqr.size t)
  names := Nat.le_trans hpq.names hqr.names
  text x hx := (hqr.text x (hpq.hasName hx)).trans (hpq.text x hx)
  expr e he := (hqr.expr e (hpq.has he)).trans (hpq.expr e he)
  native n hn := (hqr.native n (hpq.has hn)).trans (hpq.native n hn)
  owner b hb := (hqr.owner b (hpq.has hb)).trans (hpq.owner b hb)
  func f hf := (hqr.func f (hpq.has hf)).trans (by rw [hpq.func f hf])
  sealed f hf h := by
    obtain ⟨hq, hpblock⟩ := hpq.sealed f hf h
    obtain ⟨hr, hqblock⟩ := hqr.sealed f (hpq.has hf) hq
    rw [hpq.body hf] at hqblock
    exact ⟨hr, hqblock.trans hpblock⟩

theorem intern (p : Program R H) (s : String) : p.Extends (p.intern s).2 :=
  { refl p with
    names := p.interner.size_le_intern s
    text := fun _ hx => p.interner.lookup_intern_of_lt s hx }

theorem addExpr (p : Program R H) (k : Expr R) : p.Extends (p.addExpr k).2 := by
  refine { refl p with size := fun t => ?_, expr := fun e he => ?_ }
  · cases t with
    | expr => exact Nat.le_of_lt (lt_size_push _ _)
    | block | func | native => exact Nat.le_refl _
  · rw [expr_addExpr, if_neg (Nat.ne_of_lt he)]

theorem addNative (p : Program R H) (n : Native R H) : p.Extends (p.addNative n).2 := by
  refine { refl p with size := fun t => ?_, native := fun i (hi : i.index < p.natives.size) => ?_ }
  · cases t with
    | native => exact Nat.le_of_lt (lt_size_push _ _)
    | expr | block | func => exact Nat.le_refl _
  · simp only [Program.native, Program.addNative, Array.getD_eq_getD_getElem?, Array.getElem?_push,
      if_neg (Nat.ne_of_lt hi)]

theorem addBlock (p : Program R H) (o : Option FuncId) : p.Extends (p.addBlock o).2 := by
  have hfunc {f : FuncId} (hf : p.HasFunc f) : (p.addBlock o).2.func f = p.func f :=
    func_congr hf rfl
  refine { refl p with size := fun t => ?_, owner := fun b hb => ?_, func := fun f hf => ?_,
                       sealed := fun f hf h => ?_ }
  · cases t with
    | block => exact Nat.le_of_lt (lt_size_push _ _)
    | expr | func | native => exact Nat.le_refl _
  · rw [owner_addBlock, if_neg (Nat.ne_of_lt hb)]
  · rw [hfunc hf]
  · exact ⟨(hfunc hf).symm ▸ h, block_addBlock o _⟩

theorem pushFunc (p : Program R H) (k : Func) : p.Extends { p with funcs := p.funcs.push k } := by
  have hfunc {f : FuncId} (hf : f.index < p.funcs.size) :
      Program.func { p with funcs := p.funcs.push k } f = p.func f :=
    func_congr hf (by rw [Array.getElem?_push, if_neg (Nat.ne_of_lt hf)])
  refine { refl p with size := fun t => ?_, func := fun f hf => ?_, sealed := fun f hf h => ?_ }
  · cases t with
    | func => exact Nat.le_of_lt (lt_size_push _ _)
    | expr | block | native => exact Nat.le_refl _
  · rw [hfunc hf]
  · exact ⟨(hfunc hf).symm ▸ h, rfl⟩

theorem addFunc (p : Program R H) (name : String) (params : List Name) :
    p.Extends (p.addFunc name params).2 :=
  (addBlock p _).trans ((intern _ name).trans (pushFunc _ _))

theorem push (hsealed : ∀ f, p.HasFunc f → (p.func f).isSealed = true → (p.func f).body ≠ b)
    (hb : p.HasBlock b) : p.Extends (p.push b s) := by
  refine { refl p with size := fun t => ?_, owner := fun c _ => owner_push c,
                       func := fun f _ => ?_, sealed := fun f hf h => ?_ }
  · cases t with
    | block => exact Nat.le_of_eq Array.size_modify.symm
    | expr | func | native => exact Nat.le_refl _
  · rw [func_push]
  · rw [func_push, block_push hb, if_neg (hsealed f hf h), List.append_nil]
    exact ⟨h, rfl⟩

theorem markSealed (p : Program R H) (f : FuncId) : p.Extends (p.markSealed f) := by
  refine { refl p with size := fun t => ?_, func := fun g hg => ?_, sealed := fun g hg h => ?_ }
  · cases t with
    | func => exact Nat.le_of_eq Array.size_modify.symm
    | expr | block | native => exact Nat.le_refl _
  · rw [func_markSealed hg]
  · rw [func_markSealed hg]
    exact ⟨(congrArg (decide (g = f) || ·) h).trans (Bool.or_true _), rfl⟩

end Extends

/-- **An operation leaves what is there**, but for the end of a block that may grow and the seal of
a function. -/
theorem Builds.extends (h : p.Builds q) (hp : p.Owned) : p.Extends q := by
  cases h with
  | intern s => exact .intern p s
  | literal v => exact .addExpr p _
  | var s => exact (Extends.intern p s).trans (.addExpr _ _)
  | neg _ => exact .addExpr p _
  | invoke _ _ => exact .addExpr p _
  | native n => exact .addNative p n
  | block => exact .addBlock p none
  | func name _ => exact .addFunc p name _
  | @append b s _ hb _ h =>
    have hnone : (p.owner b).isNone = true := by
      rw [Program.append] at h
      split at h
      · assumption
      · cases h
    refine append_eq_push h ▸ Extends.push (fun f hf _ he => ?_) hb
    rw [← he, (hp.body f hf).2] at hnone
    cases hnone
  | @appendBody f s _ hf _ h =>
    have hopen : ¬ (p.func f).isSealed = true := by
      rw [Program.appendBody] at h
      split at h
      · cases h
      · assumption
    refine appendBody_eq_push h ▸ Extends.push (fun g hg hsealed he => ?_) (hp.body f hf).1
    exact hopen (hp.body_injective hg hf he ▸ hsealed)
  | sealFunc _ h => exact sealFunc_eq_markSealed h ▸ .markSealed p _
  | increment _ _ _ => exact (Extends.addExpr p _).trans (.addExpr _ _)

/-! ### Histories -/

theorem perform_append (p : Program R H) (b : BlockId) (s : Stmt) : p.perform (.append b s) =
    if (p.owner b).isNone then (.appended, p.push b s) else (.refused .ownedBody, p) := by
  have happend : p.append b s =
      if (p.owner b).isNone then .ok (p.push b s) else .error .ownedBody := rfl
  rw [perform, happend]
  by_cases h : (p.owner b).isNone = true
  · rw [if_pos h, if_pos h]
  · rw [if_neg h, if_neg h]

theorem perform_appendBody (p : Program R H) (f : FuncId) (s : Stmt) :
    p.perform (.appendBody f s) = if (p.func f).isSealed then (.refused .alreadySealed, p)
      else (.appended, p.push (p.func f).body s) := by
  rw [perform, appendBody]
  by_cases h : (p.func f).isSealed = true
  · rw [if_pos h, if_pos h]
  · rw [if_neg h, if_neg h]

theorem perform_sealFunc (p : Program R H) (f : FuncId) : p.perform (.sealFunc f) =
    if (p.func f).isSealed then (.refused .alreadySealed, p)
      else (.stmt (.funcDef f), p.markSealed f) := by
  rw [perform, sealFunc]
  by_cases h : (p.func f).isSealed = true
  · rw [if_pos h, if_pos h]
  · rw [if_neg h, if_neg h]

/-- **A legal command that is not refused is one of the operations that a program is built by.** -/
theorem perform_builds {k : Command R H} (h : k.Legal p) :
    (∃ e, p.perform k = (.refused e, p)) ∨ p.Builds (p.perform k).2 := by
  cases k with
  | intern s => exact .inr (.intern s)
  | literal v => exact .inr (.literal v)
  | var s => exact .inr (.var s)
  | neg e => exact .inr (.neg h)
  | invoke callee args => exact .inr (.invoke h.1 h.2)
  | native n => exact .inr (.native n)
  | block => exact .inr .block
  | func name params => exact .inr (.func name h)
  | append b s =>
    rw [perform]
    cases happend : p.append b s with
    | ok q => exact .inr (.append h.1 h.2 happend)
    | error e => exact .inl ⟨e, rfl⟩
  | appendBody f s =>
    rw [perform]
    cases happend : p.appendBody f s with
    | ok q => exact .inr (.appendBody h.1 h.2 happend)
    | error e => exact .inl ⟨e, rfl⟩
  | sealFunc f =>
    rw [perform]
    cases hseal : p.sealFunc f with
    | ok x => exact .inr (.sealFunc h hseal)
    | error e => exact .inl ⟨e, rfl⟩
  | increment x add => exact .inr (.increment h.1 h.2.1 h.2.2)

theorem Built.perform (hp : p.Built) {k : Command R H} (h : k.Legal p) : (p.perform k).2.Built := by
  rcases perform_builds h with ⟨e, he⟩ | hbuilds
  · rwa [he]
  · exact hp.tail hbuilds

theorem Owned.extends_perform (hp : p.Owned) {k : Command R H} (h : k.Legal p) :
    p.Extends (p.perform k).2 := by
  rcases perform_builds h with ⟨e, he⟩ | hbuilds
  · rw [he]
    exact .refl p
  · exact hbuilds.extends hp

theorem Built.after (hp : p.Built) {ks : List (Command R H)} (h : Command.AllLegal p ks) :
    (p.after ks).Built := by
  induction ks generalizing p with
  | nil => exact hp
  | cons k ks ih => exact ih (hp.perform h.1) h.2

theorem Built.extends_after (hp : p.Built) {ks : List (Command R H)} (h : Command.AllLegal p ks) :
    p.Extends (p.after ks) := by
  induction ks generalizing p with
  | nil => exact .refl p
  | cons k ks ih => exact (hp.owned.extends_perform h.1).trans (ih (hp.perform h.1) h.2)

/-! ### Replies -/

/-- The numbers in the reply are new, and refer to entries afterwards. -/
theorem perform_issued (p : Program R H) (k : Command R H) :
    ∀ i ∈ (p.perform k).1.issued, ¬ p.Has i.2 ∧ (p.perform k).2.Has i.2 := by
  have hnew (k : Expr R) : ¬ p.Has (p.addExpr k).1 ∧ (p.addExpr k).2.Has (p.addExpr k).1 :=
    ⟨Nat.lt_irrefl _, lt_size_push _ _⟩
  cases k with
  | intern s => exact List.forall_mem_nil _
  | literal | neg | invoke => exact List.forall_mem_singleton.2 (hnew _)
  | var s => exact List.forall_mem_singleton.2 (hnew _)
  | native n => exact List.forall_mem_singleton.2 ⟨Nat.lt_irrefl _, lt_size_push _ _⟩
  | block => exact List.forall_mem_singleton.2 ⟨Nat.lt_irrefl _, lt_size_push _ _⟩
  | func name params =>
    have hbody : ((p.addFunc name params).2.func ⟨p.funcs.size⟩).body = ⟨p.blocks.size⟩ :=
      congrArg Func.body (p.func_addFunc_self name params)
    refine List.forall_mem_cons.2 ⟨⟨Nat.lt_irrefl _, lt_size_push _ _⟩, ?_⟩
    refine List.forall_mem_singleton.2 ?_
    change ¬ p.Has ((p.addFunc name params).2.func ⟨p.funcs.size⟩).body ∧
      (p.addFunc name params).2.Has ((p.addFunc name params).2.func ⟨p.funcs.size⟩).body
    rw [hbody]
    exact ⟨Nat.lt_irrefl _, lt_size_push _ _⟩
  | append b s =>
    rw [perform_append]
    split <;> exact List.forall_mem_nil _
  | appendBody f s =>
    rw [perform_appendBody]
    split <;> exact List.forall_mem_nil _
  | sealFunc f =>
    rw [perform_sealFunc]
    split <;> exact List.forall_mem_nil _
  | increment x add =>
    refine List.forall_mem_singleton.2 ⟨?_, lt_size_push _ _⟩
    exact Nat.not_lt_of_lt (lt_size_push _ _)

/-- The names in the reply are names afterwards. -/
theorem perform_names (hp : p.interner.Coherent) (k : Command R H) :
    ∀ x ∈ (p.perform k).1.names, (p.perform k).2.HasName x := by
  cases k with
  | intern s => exact List.forall_mem_singleton.2 (hp.intern_lt s)
  | var s => exact List.forall_mem_singleton.2 (hp.intern_lt s)
  | append b s =>
    rw [perform_append]
    split <;> exact List.forall_mem_nil _
  | appendBody f s =>
    rw [perform_appendBody]
    split <;> exact List.forall_mem_nil _
  | sealFunc f =>
    rw [perform_sealFunc]
    split <;> exact List.forall_mem_nil _
  | literal | neg | invoke | native | block | func | increment => exact List.forall_mem_nil _

/-- A refused command changes nothing. -/
theorem perform_refused {k : Command R H} {why : BuildError}
    (h : (p.perform k).1 = .refused why) : (p.perform k).2 = p := by
  cases k with
  | append b s =>
    rw [perform_append] at h ⊢
    split at h <;> cases h
    exact congrArg Prod.snd (if_neg ‹_›)
  | appendBody f s =>
    rw [perform_appendBody] at h ⊢
    split at h <;> cases h
    exact congrArg Prod.snd (if_pos ‹_›)
  | sealFunc f =>
    rw [perform_sealFunc] at h ⊢
    split at h <;> cases h
    exact congrArg Prod.snd (if_pos ‹_›)
  | intern | literal | var | neg | invoke | native | block | func | increment => cases h

/-- A block in a reply belongs to no function. -/
theorem owner_of_perform_block {k : Command R H} (h : (p.perform k).1 = .block b) :
    (p.perform k).2.HasBlock b ∧ (p.perform k).2.owner b = none := by
  cases k with
  | block =>
    cases h
    exact ⟨lt_size_push _ _, (owner_addBlock none _).trans (if_pos rfl)⟩
  | append b s =>
    rw [perform_append] at h
    split at h <;> cases h
  | appendBody f s =>
    rw [perform_appendBody] at h
    split at h <;> cases h
  | sealFunc f =>
    rw [perform_sealFunc] at h
    split at h <;> cases h
  | intern | literal | var | neg | invoke | native | func | increment => cases h

/-- A command puts at the end of each block what it appends there. -/
theorem block_perform (hp : p.Owned) {k : Command R H} (h : k.Legal p) (b : BlockId) :
    (p.perform k).2.block b = p.block b ++ Command.stmtsFor b (k.logged p) := by
  have hpush {c : BlockId} (hc : p.HasBlock c) (s : Stmt) :
      (p.push c s).block b = p.block b ++ Command.stmtsFor b [(c, s)] := by
    rw [block_push hc]
    congr 1
    by_cases hcb : b = c
    · simp [Command.stmtsFor, hcb]
    · simp [Command.stmtsFor, hcb, Ne.symm hcb]
  cases k with
  | intern | literal | var | neg | invoke | native | increment => exact (List.append_nil _).symm
  | block => exact (block_addBlock none b).trans (List.append_nil _).symm
  | func name params => exact (block_addBlock _ b).trans (List.append_nil _).symm
  | append c s =>
    rw [Command.logged, perform_append]
    split
    · exact hpush h.1 s
    · exact (List.append_nil _).symm
  | appendBody f s =>
    rw [Command.logged, perform_appendBody]
    split
    · exact (List.append_nil _).symm
    · exact hpush (hp.body f h.1).1 s
  | sealFunc f =>
    rw [Command.logged, perform_sealFunc]
    split <;> exact (List.append_nil _).symm

theorem Built.block_after (hp : p.Built) {ks : List (Command R H)} (h : Command.AllLegal p ks)
    (b : BlockId) : (p.after ks).block b = p.block b ++ Command.stmtsFor b (Command.log p ks) := by
  induction ks generalizing p with
  | nil => exact (List.append_nil _).symm
  | cons k ks ih =>
    have hlog : Command.stmtsFor b (Command.log p (k :: ks)) =
        Command.stmtsFor b (k.logged p) ++ Command.stmtsFor b (Command.log (p.perform k).2 ks) :=
      List.filterMap_append
    rw [Program.after, ih (hp.perform h.1) h.2, block_perform hp.owned h.1, hlog, List.append_assoc]

/-- What a reply said right after its command is so at the end of the history. -/
theorem Built.of_mem_replies (hp : p.Built) {ks : List (Command R H)} (h : Command.AllLegal p ks)
    {r : Reply} (hr : r ∈ p.replies ks) :
    ∃ (q : Program R H) (k : Command R H), q.Built ∧ (q.perform k).1 = r ∧
      (q.perform k).2.Extends (p.after ks) := by
  induction ks generalizing p with
  | nil => cases hr
  | cons k ks ih =>
    rcases List.mem_cons.1 hr with rfl | hr
    · exact ⟨p, k, hp, rfl, (hp.perform h.1).extends_after h.2⟩
    · exact ih (hp.perform h.1) h.2 hr

/-! ### The invariant -/

/-- A program that has given these replies. -/
structure Coherent (p : Program R H) (rs : List Reply) : Prop where
  /-- Every number that was issued refers to an entry. -/
  issued : ∀ r ∈ rs, ∀ i ∈ r.issued, p.Has i.2
  names : ∀ r ∈ rs, ∀ x ∈ r.names, p.HasName x
  operand_lt : ∀ e a, p.Operand e a → a.index < e.index
  /-- Every function has a body, which it shares with no other function. -/
  body : ∀ f, p.HasFunc f → p.HasBlock (p.func f).body
  body_injective : ∀ f g, p.HasFunc f → p.HasFunc g → (p.func f).body = (p.func g).body → f = g
  /-- A block that was asked for by itself is no function's body. -/
  body_not_mem : ∀ f, p.HasFunc f → .block (p.func f).body ∉ rs

/-- What a program that has given these replies does next. -/
structure Responds (p : Program R H) (rs : List Reply) : Prop where
  /-- A number that is issued was not there before. -/
  fresh : ∀ k, ∀ i ∈ (p.perform k).1.issued, ¬ p.Has i.2
  /-- A name that is issued is that of the string; it was there before only as such. -/
  text : ∀ s k, k = .intern s ∨ k = .var s → ∀ x ∈ (p.perform k).1.names,
    (p.perform k).2.text x = s ∧ (p.HasName x → p.text x = s)
  refused : ∀ k e, (p.perform k).1 = .refused e → (p.perform k).2 = p
  append_block : ∀ b s, .block b ∈ rs → (p.perform (.append b s)).1 = .appended
  append_body : ∀ f s, p.HasFunc f →
    p.perform (.append (p.func f).body s) = (.refused .ownedBody, p)
  appendBody : ∀ f s, (p.perform (.appendBody f s)).1 =
    if (p.func f).isSealed then .refused .alreadySealed else .appended
  sealFunc : ∀ f, p.HasFunc f → ((p.perform (.sealFunc f)).2.func f).isSealed = true

theorem coherent_replies {ks : List (Command R H)} (h : Command.AllLegal .empty ks) :
    (Program.empty.after ks).Coherent (Program.empty.replies ks) := by
  have hempty : (.empty : Program R H).Built := .refl
  have hp : (Program.empty.after ks).Built := hempty.after h
  refine ⟨fun r hr i hi => ?_, fun r hr x hx => ?_, fun e a ha => hp.operand_lt ha,
    fun f hf => (hp.owned.body f hf).1, fun f g hf hg => hp.owned.body_injective hf hg,
    fun f hf hb => ?_⟩
  · obtain ⟨q, k, -, rfl, hext⟩ := hempty.of_mem_replies h hr
    exact hext.has (q.perform_issued k i hi).2
  · obtain ⟨q, k, hq, rfl, hext⟩ := hempty.of_mem_replies h hr
    exact hext.hasName (perform_names hq.interner_coherent k x hx)
  · obtain ⟨q, k, -, hk, hext⟩ := hempty.of_mem_replies h hb
    obtain ⟨hhas, hnone⟩ := owner_of_perform_block hk
    rw [← hext.owner _ hhas, (hp.owned.body f hf).2] at hnone
    cases hnone

theorem responds_replies {ks : List (Command R H)} (h : Command.AllLegal .empty ks) :
    (Program.empty.after ks).Responds (Program.empty.replies ks) := by
  have hempty : (.empty : Program R H).Built := .refl
  have hp : (Program.empty.after ks).Built := hempty.after h
  have howner := (hempty.after h).owned
  generalize hq : Program.empty.after ks = p at hp howner
  refine ⟨fun k i hi => (p.perform_issued k i hi).1, fun s k hk x hx => ?_,
    fun k e => perform_refused, fun b s hb => ?_, fun f s hf => ?_, fun f s => ?_, fun f hf => ?_⟩
  · obtain rfl : x = (p.interner.intern s).1 := by
      rcases hk with rfl | rfl <;> exact List.mem_singleton.1 hx
    have hnew : (p.perform k).2.interner = (p.interner.intern s).2 := by
      rcases hk with rfl | rfl <;> rfl
    rw [text, hnew]
    exact ⟨hp.interner_coherent.lookup_intern s, hp.interner_coherent.lookup_of_intern_lt s⟩
  · obtain ⟨q, k, -, hk, hext⟩ := hempty.of_mem_replies h hb
    obtain ⟨hhas, hnone⟩ := owner_of_perform_block hk
    rw [hq] at hext
    have hfree : (p.owner b).isNone = true := by rw [hext.owner b hhas, hnone]; rfl
    rw [perform_append, if_pos hfree]
  · have hbody : ¬ (p.owner (p.func f).body).isNone = true := by
      rw [(howner.body f hf).2]
      nofun
    rw [perform_append, if_neg hbody]
  · rw [perform_appendBody]
    split <;> rfl
  · rw [perform_sealFunc]
    split
    · assumption
    · rw [func_markSealed hf]
      exact Bool.or_eq_true_iff.2 (.inl (decide_eq_true rfl))

/-- **What a builder can rely on.** After any commands that refer only to what was issued: every
number that was issued refers to an entry, operands are older than what they are operands of, and
every function has a body of its own, which is no block that was asked for by itself. The next
command issues new numbers only, and a refused one changes nothing; statements are appended to the
bodies of unsealed functions through the functions, and to other blocks. After more such commands
all entries are as they were, but for blocks, which have gained the statements that were appended to
them, in order, and for seals; and a function that was sealed is as it was, with its body. -/
theorem builder_invariant {ks : List (Command R H)} (h : Command.AllLegal .empty ks) :
    (Program.empty.after ks).Coherent (Program.empty.replies ks) ∧
      (Program.empty.after ks).Responds (Program.empty.replies ks) ∧
      ∀ more, Command.AllLegal (Program.empty.after ks) more →
        (Program.empty.after ks).Extends ((Program.empty.after ks).after more) ∧
        ∀ b, ((Program.empty.after ks).after more).block b = (Program.empty.after ks).block b ++
          Command.stmtsFor b (Command.log (Program.empty.after ks) more) := by
  have hempty : (.empty : Program R H).Built := .refl
  exact ⟨coherent_replies h, responds_replies h, fun more hmore =>
    ⟨(hempty.after h).extends_after hmore, (hempty.after h).block_after hmore⟩⟩

end Program

/-- A function that counts down with itself, begun and not yet sealed, and a loop to use it in. -/
def beginsCount : List (Command Float Nat) :=
  [.native (.pure "sub" (.fixed 2) fun _ => .value .void), .var "n", .func "count" [⟨1⟩],
    .invoke (.callable ⟨0⟩) [⟨0⟩], .block, .append ⟨1⟩ .breakLoop,
    .appendBody ⟨0⟩ (.whileLoop ⟨0⟩ ⟨1⟩)]

/-- The end of the function, and appends to it that come too late. -/
def endsCount : List (Command Float Nat) :=
  [.appendBody ⟨0⟩ (.returnValue (some ⟨1⟩)), .sealFunc ⟨0⟩, .appendBody ⟨0⟩ .breakLoop,
    .append ⟨0⟩ .breakLoop, .sealFunc ⟨0⟩, .append ⟨1⟩ (.funcDef ⟨0⟩)]

/-- The function keeps what was appended before it was sealed. -/
theorem Program.builder_invariant_count :
    Command.AllLegal .empty beginsCount ∧
      Command.AllLegal (Program.empty.after beginsCount) endsCount ∧
      (Program.empty.after beginsCount).replies endsCount = [.appended, .stmt (.funcDef ⟨0⟩),
        .refused .alreadySealed, .refused .ownedBody, .refused .alreadySealed, .appended] ∧
      (Program.empty.after beginsCount).Coherent (Program.empty.replies beginsCount) ∧
      (Program.empty.after beginsCount).Responds (Program.empty.replies beginsCount) ∧
      ((Program.empty.after beginsCount).after endsCount).block ⟨0⟩ =
        [.whileLoop ⟨0⟩ ⟨1⟩, .returnValue (some ⟨1⟩)] := by
  have hbegins : Command.AllLegal .empty beginsCount := by decide
  have hends : Command.AllLegal (Program.empty.after beginsCount) endsCount := by decide
  obtain ⟨hcoherent, hresponds, hlater⟩ := builder_invariant hbegins
  refine ⟨hbegins, hends, rfl, hcoherent, hresponds, ?_⟩
  rw [(hlater _ hends).2 ⟨0⟩]
  rfl

end StagedGraph
