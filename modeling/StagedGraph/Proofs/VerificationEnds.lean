import StagedGraph.Proofs.Printing
import StagedGraph.Proofs.Reentry
import StagedGraph.Proofs.SelfDefinition

/-!
# Verification ends

The verifier follows blocks into blocks, calls into bodies and expressions into operands, and a
program may be cyclic in each of the first two ways. Three things end the walk. A block on the path
is not entered again, so that the path is no longer than the program has blocks (`Room`). A body is
entered once, and while it is walked its block is on the path like any other. And the operands of
an expression are older than the expression.

The bounds that the walk carries are thus never the reason why it stops (`visitBlock_ends`), and a
larger bound changes nothing (`visitBlock_eq`).

A log of the walk says which bodies it enters, in order, and also if the walk stops early. The log
has no function twice, and none that was entered before (`logBlock_logs`).
-/

namespace StagedGraph

variable {R H α : Type}

namespace Verifier

variable {p : Program R H} {fuel fuel' : Nat} {path : List BlockId} {b : BlockId}

/-! ### The path -/

/-- The path has blocks of the program, each once, and there is fuel for all the others. -/
structure Room (p : Program R H) (fuel : Nat) (path : List BlockId) : Prop where
  nodup : path.Nodup
  issued : ∀ b ∈ path, p.HasBlock b
  enough : p.blocks.size < path.length + fuel

theorem Room.start (h : p.blocks.size < fuel) : Room p fuel [] where
  nodup := .nil
  issued := nofun
  enough := by rwa [List.length_nil, Nat.zero_add]

/-- There is fuel for one more block. -/
theorem Room.pos (h : Room p fuel path) : 0 < fuel := by
  have hle := Printer.length_le_size h.nodup h.issued
  have henough := h.enough
  omega

/-- A block with statements can be put on the path, if it is not there. -/
theorem Room.enter (h : Room p (fuel + 1) path) (hb : b ∉ path) {s : Stmt} (hs : s ∈ p.block b) :
    Room p fuel (b :: path) where
  nodup := List.nodup_cons.2 ⟨hb, h.nodup⟩
  issued := by
    refine List.forall_mem_cons.2 ⟨Nat.lt_of_not_le fun hle => ?_, h.issued⟩
    rw [Program.block_of_size_le hle] at hs
    cases hs
  enough := by
    have henough := h.enough
    rw [List.length_cons]
    omega

/-! ### Steps that end -/

/-- From every list of functions, the step succeeds or meets a fault. -/
def Ends (x : Step) : Prop :=
  ∀ ent, (∃ ent', x ent = .ok ent') ∨
    ∃ f : Fault, f.isPrevented = true ∧ x ent = .error (.error (.ofFault f))

namespace Ends

variable {x y : Step}

theorem done : Ends .ok := fun ent => .inl ⟨ent, rfl⟩

theorem fault {f : Fault} (h : f.isPrevented = true) : Ends (Verifier.fault f) :=
  fun _ => .inr ⟨f, h, rfl⟩

theorem allowed {f : Fault} {c : Bool} (hx : Ends x) (h : f.isPrevented = true) :
    Ends (if c then x else Verifier.fault f) := by
  split
  · exact hx
  · exact .fault h

theorem both (hx : Ends x) (hy : Ends y) : Ends (Verifier.both x y) := by
  intro ent
  rw [Verifier.both]
  rcases hx ent with ⟨ent', hent⟩ | ⟨f, hf, hent⟩
  · rw [hent]
    exact hy ent'
  · rw [hent]
    exact .inr ⟨f, hf, rfl⟩

theorem each {step : α → Step} {as : List α} (h : ∀ a ∈ as, Ends (step a)) :
    Ends (Verifier.each step as) := by
  induction as with
  | nil => exact done
  | cons a as ih =>
    exact (h a List.mem_cons_self).both (ih fun b hb => h b (List.mem_cons_of_mem a hb))

theorem once {f : FuncId} {body : Step} (h : Ends body) : Ends (Verifier.once f body) := by
  intro ent
  rw [Verifier.once]
  split
  · exact done ent
  · exact h (f :: ent)

end Ends

/-- What is wrong with a call is a fault that verification prevents. -/
theorem isPrevented_of_checkInvoke {callee : Callee} {argc : Nat} {f : Fault}
    (h : checkInvoke p callee argc = .error f) : f.isPrevented = true := by
  cases callee with
  | native n =>
    rw [checkInvoke] at h
    cases harity : (p.native n).arity with
    | fixed expected =>
      rw [harity, checkArity] at h
      split at h <;> cases h
      rfl
    | variadic =>
      rw [harity] at h
      cases h
  | callable g =>
    rw [checkInvoke, checkArgCount] at h
    split at h
    · split at h <;> cases h
      rfl
    · cases h
      rfl

/-- The walk through an expression, as a step. -/
theorem visitExpr_succ (enter : FuncId → Step) (fuel : Nat) (e : ExprId) :
    visitExpr p enter (fuel + 1) e =
      match p.expr e with
      | .literal _ => .ok
      | .var _ => .ok
      | .neg operand => visitExpr p enter fuel operand
      | .invoke callee args =>
        match checkInvoke p callee args.length with
        | .error f => fault f
        | .ok () =>
          match callee with
          | .native _ => each (visitExpr p enter fuel) args
          | .callable f => both (enter f) (each (visitExpr p enter fuel) args) := by
  funext ent
  rw [visitExpr]
  cases p.expr e with
  | literal | var | neg => rfl
  | invoke callee args =>
    dsimp only
    cases checkInvoke p callee args.length with
    | error f => rfl
    | ok u => cases callee <;> rfl

/-- Fuel that reaches an expression reaches its operands with one unit less, as they are older. -/
theorem fuel_of_operand (hp : p.Layered) {e a : ExprId} (ha : p.Operand e a)
    (h : min e.index p.exprs.size < fuel + 1) : min a.index p.exprs.size < fuel := by
  have holder := hp e a ha
  have hsize := Program.Operand.lt_size ha
  omega

/-- The walk through an expression ends, as its operands are older. -/
theorem visitExpr_ends (hp : p.Layered) {enter : FuncId → Step} (henter : ∀ f, Ends (enter f))
    {e : ExprId} (hfuel : min e.index p.exprs.size < fuel) : Ends (visitExpr p enter fuel e) := by
  induction fuel generalizing e with
  | zero => exact absurd hfuel (Nat.not_lt_zero _)
  | succ fuel ih =>
    have hoperand {a : ExprId} (ha : p.Operand e a) : Ends (visitExpr p enter fuel a) :=
      ih (fuel_of_operand hp ha hfuel)
    rw [visitExpr_succ]
    split
    · exact .done
    · exact .done
    · next a he => exact hoperand (by rw [Program.Operand, he]; exact List.mem_singleton_self a)
    · next callee args he =>
      have hargs : Ends (each (visitExpr p enter fuel) args) :=
        .each fun a ha => hoperand (by rwa [Program.Operand, he])
      split
      · next hcheck => exact .fault (isPrevented_of_checkInvoke hcheck)
      · split
        · exact hargs
        · exact (henter _).both hargs

theorem visitStmt_ends {expr : ExprId → Step} {block : Context → BlockId → Step}
    {enter : FuncId → Step} {ctx : Context} (hexpr : ∀ e, Ends (expr e))
    (hblock : ∀ l b, Ends (block { ctx with inLoop := l } b)) (henter : ∀ f, Ends (enter f))
    (s : Stmt) : Ends (visitStmt expr block enter ctx s) := by
  cases s with
  | expr e => exact hexpr e
  | assign x e => exact hexpr e
  | ifThen e b => exact (hexpr e).both (hblock ctx.inLoop b)
  | whileLoop e b => exact (hexpr e).both (hblock true b)
  | breakLoop => exact .allowed .done rfl
  | returnValue e =>
    cases e with
    | none => exact .allowed .done rfl
    | some e => exact .allowed (hexpr e) rfl
  | funcDef f => exact henter f

/-- **The walk through a block ends.** The induction is on the fuel, which is as much as the path
leaves room for. -/
theorem visitBlock_ends (hp : p.Layered) {ctx : Context} (h : Room p fuel ctx.path) :
    Ends (visitBlock p fuel ctx b) := by
  induction fuel generalizing ctx b with
  | zero => exact absurd h.pos (Nat.lt_irrefl 0)
  | succ fuel ih =>
    by_cases hb : b ∈ ctx.path
    · rw [visitBlock_of_mem hb]
      exact .fault rfl
    · rw [visitBlock_of_not_mem hb]
      refine .each fun s hs => ?_
      have hroom : Room p fuel (b :: ctx.path) := h.enter hb hs
      have henter (f : FuncId) : Ends (enter p fuel ctx b f) := .once (ih hroom)
      have hexpr (e : ExprId) : Ends (visitExpr p (enter p fuel ctx b) (p.exprs.size + 1) e) :=
        visitExpr_ends hp henter (by omega)
      exact visitStmt_ends hexpr (fun _ _ => ih hroom) henter s

/-! ### Larger bounds -/

theorem each_congr {f g : α → Step} {as : List α} (h : ∀ a ∈ as, f a = g a) :
    each f as = each g as := by
  induction as with
  | nil => rfl
  | cons a as ih =>
    obtain ⟨ha, has⟩ := List.forall_mem_cons.1 h
    funext ent
    rw [each, each, ha, ih has]

/-- More fuel than an expression needs changes nothing. -/
theorem visitExpr_eq (hp : p.Layered) {enter : FuncId → Step} {e : ExprId}
    (h : min e.index p.exprs.size < fuel) (h' : min e.index p.exprs.size < fuel') :
    visitExpr p enter fuel e = visitExpr p enter fuel' e := by
  induction fuel generalizing fuel' e with
  | zero => exact absurd h (Nat.not_lt_zero _)
  | succ fuel ih =>
    cases fuel' with
    | zero => exact absurd h' (Nat.not_lt_zero _)
    | succ fuel' =>
      have hoperand {a : ExprId} (ha : p.Operand e a) :
          visitExpr p enter fuel a = visitExpr p enter fuel' a :=
        ih (fuel_of_operand hp ha h) (fuel_of_operand hp ha h')
      rw [visitExpr_succ, visitExpr_succ]
      cases he : p.expr e with
      | literal | var => rfl
      | neg a => exact hoperand (by rw [Program.Operand, he]; exact List.mem_singleton_self a)
      | invoke callee args =>
        have hargs : each (visitExpr p enter fuel) args = each (visitExpr p enter fuel') args :=
          each_congr fun a ha => hoperand (by rwa [Program.Operand, he])
        dsimp only
        rw [hargs]

theorem visitStmt_congr {expr : ExprId → Step} {block block' : Context → BlockId → Step}
    {enter : FuncId → Step} {ctx : Context}
    (h : ∀ l b, block { ctx with inLoop := l } b = block' { ctx with inLoop := l } b) (s : Stmt) :
    visitStmt expr block enter ctx s = visitStmt expr block' enter ctx s := by
  cases s with
  | ifThen e b => exact congrArg (both (expr e)) (h ctx.inLoop b)
  | whileLoop e b => exact congrArg (both (expr e)) (h true b)
  | expr | assign | breakLoop | funcDef => rfl
  | returnValue e => cases e <;> rfl

/-- **More fuel than the path leaves room for changes nothing.** -/
theorem visitBlock_eq {ctx : Context} (h : Room p fuel ctx.path) (h' : Room p fuel' ctx.path) :
    visitBlock p fuel ctx b = visitBlock p fuel' ctx b := by
  induction fuel generalizing fuel' ctx b with
  | zero => exact absurd h.pos (Nat.lt_irrefl 0)
  | succ fuel ih =>
    cases fuel' with
    | zero => exact absurd h'.pos (Nat.lt_irrefl 0)
    | succ fuel' =>
      by_cases hb : b ∈ ctx.path
      · rw [visitBlock_of_mem hb, visitBlock_of_mem hb]
      · rw [visitBlock_of_not_mem hb, visitBlock_of_not_mem hb]
        refine each_congr fun s hs => ?_
        have hroom := h.enter hb hs
        have hroom' := h'.enter hb hs
        have henter : enter p fuel ctx b = enter p fuel' ctx b := by
          funext f
          rw [enter, enter, ih hroom hroom']
        rw [henter]
        exact visitStmt_congr (fun l c => ih hroom hroom') s

/-! ### Logs -/

/-- A step with a log: besides what the step yields, the functions whose bodies it enters, in
order. -/
abbrev Logged := List FuncId → Except Stop (List FuncId) × List FuncId

namespace Logged

/-- A step that enters nothing. -/
def silent (x : Step) : Logged := fun ent => (x ent, [])

/-- One step after another. -/
def both (x y : Logged) : Logged := fun ent =>
  match x ent with
  | (.ok ent, log) => ((y ent).1, log ++ (y ent).2)
  | (.error stop, log) => (.error stop, log)

/-- The steps for the members of a list, one after another. -/
def each (step : α → Logged) : List α → Logged
  | [] => silent .ok
  | a :: as => both (step a) (each step as)

/-- A step that is taken for a function only once, and is logged then. -/
def once (f : FuncId) (body : Logged) : Logged := fun ent =>
  if f ∈ ent then (.ok ent, []) else ((body (f :: ent)).1, f :: (body (f :: ent)).2)

end Logged

/-- The first is the second with a log: no function is in the log twice or was entered before, and
if the step succeeds, then those in the log are all that it has entered. -/
structure Logs (x : Logged) (y : Step) : Prop where
  yields : ∀ ent, (x ent).1 = y ent
  nodup : ∀ ent, (x ent).2.Nodup
  new : ∀ ent, ∀ f ∈ (x ent).2, f ∉ ent
  entered : ∀ ent ent', y ent = .ok ent' → ent' = (x ent).2.reverse ++ ent

namespace Logs

theorem done : Logs (.silent .ok) .ok where
  yields _ := rfl
  nodup _ := .nil
  new := nofun
  entered _ _ h := (Except.ok.inj h).symm

theorem stop {x : Step} {why : Stop} (h : ∀ ent, x ent = .error why) : Logs (.silent x) x where
  yields _ := rfl
  nodup _ := .nil
  new := nofun
  entered ent ent' hx := by rw [h] at hx; cases hx

theorem allowed {x : Logged} {y : Step} {f : Fault} {c : Bool} (hx : Logs x y) :
    Logs (if c then x else .silent (fault f)) (if c then y else fault f) := by
  split
  · exact hx
  · exact .stop fun _ => rfl

variable {x x' : Logged} {y y' : Step}

/-- The second step is taken with what the first one has entered, and not if that one stops. -/
theorem both_cases (hx : Logs x y) (x' : Logged) (ent : List FuncId) :
    (∃ ent', y ent = .ok ent' ∧ ent' = (x ent).2.reverse ++ ent ∧
        Logged.both x x' ent = ((x' ent').1, (x ent).2 ++ (x' ent').2)) ∨
      ∃ why, y ent = .error why ∧ Logged.both x x' ent = (.error why, (x ent).2) := by
  have hyields := hx.yields ent
  have hentered := hx.entered ent
  rw [Logged.both]
  rcases hent : x ent with ⟨why | ent', log⟩
  all_goals rw [hent] at hyields hentered
  · exact .inr ⟨why, hyields.symm, rfl⟩
  · exact .inl ⟨ent', hyields.symm, hentered ent' hyields.symm, rfl⟩

theorem both (hx : Logs x y) (hx' : Logs x' y') : Logs (.both x x') (Verifier.both y y') where
  yields ent := by
    rcases hx.both_cases x' ent with ⟨ent', hy, -, hboth⟩ | ⟨why, hy, hboth⟩
    · rw [hboth, Verifier.both, hy]
      exact hx'.yields ent'
    · rw [hboth, Verifier.both, hy]
  nodup ent := by
    rcases hx.both_cases x' ent with ⟨ent', -, hent, hboth⟩ | ⟨why, -, hboth⟩
    · rw [hboth]
      refine List.nodup_append.2 ⟨hx.nodup ent, hx'.nodup ent', fun f hf g hg hfg => ?_⟩
      refine hx'.new ent' g hg ?_
      rw [hent, ← hfg]
      exact List.mem_append_left _ (List.mem_reverse.2 hf)
    · rw [hboth]
      exact hx.nodup ent
  new ent := by
    rcases hx.both_cases x' ent with ⟨ent', -, hent, hboth⟩ | ⟨why, -, hboth⟩
    · rw [hboth]
      intro f hf hmem
      rcases List.mem_append.1 hf with hf | hf
      · exact hx.new ent f hf hmem
      · exact hx'.new ent' f hf (hent ▸ List.mem_append_right _ hmem)
    · rw [hboth]
      exact hx.new ent
  entered ent ent'' h := by
    rw [Verifier.both] at h
    rcases hx.both_cases x' ent with ⟨ent', hy, hent, hboth⟩ | ⟨why, hy, hboth⟩
    · rw [hy] at h
      rw [hboth, hx'.entered ent' ent'' h, hent, List.reverse_append, List.append_assoc]
    · rw [hy] at h
      cases h

theorem each {step : α → Logged} {step' : α → Step} {as : List α}
    (h : ∀ a ∈ as, Logs (step a) (step' a)) : Logs (.each step as) (Verifier.each step' as) := by
  induction as with
  | nil => exact done
  | cons a as ih =>
    exact (h a List.mem_cons_self).both (ih fun b hb => h b (List.mem_cons_of_mem a hb))

theorem once {f : FuncId} (h : Logs x y) : Logs (.once f x) (Verifier.once f y) where
  yields ent := by
    rw [Logged.once, Verifier.once]
    split
    · rfl
    · exact h.yields _
  nodup ent := by
    rw [Logged.once]
    split
    · exact .nil
    · exact List.nodup_cons.2 ⟨fun hmem => h.new _ f hmem List.mem_cons_self, h.nodup _⟩
  new ent := by
    rw [Logged.once]
    split
    · intro g hg
      cases hg
    · next hf =>
      refine List.forall_mem_cons.2 ⟨hf, fun g hg hent => ?_⟩
      exact h.new _ g hg (List.mem_cons_of_mem f hent)
  entered ent ent' hy := by
    rw [Verifier.once] at hy
    rw [Logged.once]
    split at hy
    · next hf =>
      rw [if_pos hf]
      exact (Except.ok.inj hy).symm
    · next hf =>
      rw [if_neg hf, h.entered _ _ hy, List.reverse_cons, List.append_assoc, List.singleton_append]

end Logs

/-- Verifies an expression, with a log. -/
def logExpr (p : Program R H) (enter : FuncId → Logged) : Nat → ExprId → Logged
  | 0, _ => .silent fun _ => .error .outOfFuel
  | fuel + 1, e =>
    match p.expr e with
    | .literal _ => .silent .ok
    | .var _ => .silent .ok
    | .neg operand => logExpr p enter fuel operand
    | .invoke callee args =>
      match checkInvoke p callee args.length with
      | .error f => .silent (fault f)
      | .ok () =>
        match callee with
        | .native _ => .each (logExpr p enter fuel) args
        | .callable f => .both (enter f) (.each (logExpr p enter fuel) args)

/-- Verifies a statement, with a log. -/
def logStmt (expr : ExprId → Logged) (block : Context → BlockId → Logged)
    (enter : FuncId → Logged) (ctx : Context) : Stmt → Logged
  | .expr e => expr e
  | .assign _ e => expr e
  | .ifThen cond thenBlock => .both (expr cond) (block ctx thenBlock)
  | .whileLoop cond body => .both (expr cond) (block { ctx with inLoop := true } body)
  | .breakLoop => if ctx.inLoop then .silent .ok else .silent (fault .breakOutsideLoop)
  | .returnValue none =>
    if ctx.inCallable then .silent .ok else .silent (fault .returnOutsideCallable)
  | .returnValue (some e) =>
    if ctx.inCallable then expr e else .silent (fault .returnOutsideCallable)
  | .funcDef f => enter f

/-- Verifies a block, with a log. -/
def logBlock (p : Program R H) : Nat → Context → BlockId → Logged
  | 0, _, _ => .silent fun _ => .error .outOfFuel
  | fuel + 1, ctx, b =>
    if b ∈ ctx.path then .silent (fault .cyclicBlock)
    else
      let ctx := ctx.enter b
      let enter (f : FuncId) : Logged := .once f (logBlock p fuel ctx.body (p.func f).body)
      .each (logStmt (logExpr p enter (p.exprs.size + 1)) (logBlock p fuel) enter ctx) (p.block b)

theorem logExpr_logs {enter : FuncId → Logged} {enter' : FuncId → Step}
    (henter : ∀ f, Logs (enter f) (enter' f)) (fuel : Nat) (e : ExprId) :
    Logs (logExpr p enter fuel e) (visitExpr p enter' fuel e) := by
  induction fuel generalizing e with
  | zero => exact .stop fun _ => rfl
  | succ fuel ih =>
    rw [logExpr, visitExpr_succ]
    cases p.expr e with
    | literal | var => exact .done
    | neg operand => exact ih operand
    | invoke callee args =>
      have hargs : Logs (.each (logExpr p enter fuel) args) (each (visitExpr p enter' fuel) args) :=
        .each fun a _ => ih a
      dsimp only
      cases checkInvoke p callee args.length with
      | error f => exact .stop fun _ => rfl
      | ok u =>
        cases callee with
        | native n => exact hargs
        | callable f => exact (henter f).both hargs

theorem logStmt_logs {expr : ExprId → Logged} {expr' : ExprId → Step}
    {block : Context → BlockId → Logged} {block' : Context → BlockId → Step}
    {enter : FuncId → Logged} {enter' : FuncId → Step} (hexpr : ∀ e, Logs (expr e) (expr' e))
    (hblock : ∀ ctx b, Logs (block ctx b) (block' ctx b)) (henter : ∀ f, Logs (enter f) (enter' f))
    (ctx : Context) (s : Stmt) :
    Logs (logStmt expr block enter ctx s) (visitStmt expr' block' enter' ctx s) := by
  cases s with
  | expr e => exact hexpr e
  | assign x e => exact hexpr e
  | ifThen e b => exact (hexpr e).both (hblock _ b)
  | whileLoop e b => exact (hexpr e).both (hblock _ b)
  | breakLoop => exact .allowed .done
  | returnValue e =>
    cases e with
    | none => exact .allowed .done
    | some e => exact .allowed (hexpr e)
  | funcDef f => exact henter f

/-- **The walk with a log is the walk**, and no function is in its log twice. -/
theorem logBlock_logs (fuel : Nat) (ctx : Context) (b : BlockId) :
    Logs (logBlock p fuel ctx b) (visitBlock p fuel ctx b) := by
  induction fuel generalizing ctx b with
  | zero => exact .stop fun _ => rfl
  | succ fuel ih =>
    rw [logBlock]
    split
    · next hb =>
      rw [visitBlock_of_mem hb]
      exact .stop fun _ => rfl
    · next hb =>
      rw [visitBlock_of_not_mem hb]
      have henter (f : FuncId) : Logs (.once f (logBlock p fuel (ctx.enter b).body (p.func f).body))
          (enter p fuel ctx b f) := .once (ih _ _)
      exact .each fun s _ => logStmt_logs (logExpr_logs henter _) ih henter _ s

/-- The bodies that verification enters from a root, in order, also if it fails. -/
def log (p : Program R H) (root : BlockId) : List FuncId :=
  (logBlock p (p.blocks.size + 1) .root root []).2

end Verifier

/-- **Verification ends.** From every block of a program that was built it succeeds or meets a
fault. It does not depend on the bounds of its walk, as long as they are above the numbers of blocks
and of expressions. The walk with a log comes to the same result, and enters no body twice; if
verification succeeds, then the log has the functions that it has entered. -/
theorem verification_ends {p : Program R H} (hp : p.Built) (root : BlockId) :
    (p.verify root = .ok () ∨
        ∃ f : Fault, f.isPrevented = true ∧ p.verify root = .error (.error (.ofFault f))) ∧
      (∀ fuel, p.blocks.size < fuel →
        Verifier.visitBlock p fuel .root root [] = Verifier.entered p root) ∧
      (∀ enter fuel e, p.exprs.size < fuel →
        Verifier.visitExpr p enter fuel e = Verifier.visitExpr p enter (p.exprs.size + 1) e) ∧
      (Verifier.logBlock p (p.blocks.size + 1) .root root []).1 = Verifier.entered p root ∧
      (Verifier.log p root).Nodup ∧
      ∀ fs, Verifier.entered p root = .ok fs → fs = (Verifier.log p root).reverse := by
  have hroom {fuel : Nat} (h : p.blocks.size < fuel) :
      Verifier.Room p fuel Verifier.Context.root.path := .start h
  have hlogs := Verifier.logBlock_logs (p := p) (p.blocks.size + 1) .root root
  refine ⟨?_, fun fuel h => ?_, fun enter fuel e h => ?_, hlogs.yields [], hlogs.nodup [],
    fun fs h => ?_⟩
  · rw [Program.verify, Verifier.entered]
    rcases Verifier.visitBlock_ends hp.layered (hroom (Nat.lt_succ_self _)) [] with
      ⟨fs, h⟩ | ⟨f, hf, h⟩
    · rw [h]
      exact .inl rfl
    · rw [h]
      exact .inr ⟨f, hf, rfl⟩
  · rw [Verifier.entered, Verifier.visitBlock_eq (hroom h) (hroom (Nat.lt_succ_self _))]
  · exact Verifier.visitExpr_eq hp.layered (by omega) (by omega)
  · rw [hlogs.entered [] fs h, List.append_nil]
    rfl

/-- A function that is defined inside its own body, so that its blocks are nested in themselves, is
entered once. -/
theorem verification_ends_definesItself :
    definesItself.2.Built ∧ definesItself.2.NestedInItself ⟨0⟩ ∧
      definesItself.2.verify definesItself.1 = .ok () ∧
      Verifier.log definesItself.2 definesItself.1 = [⟨0⟩] ∧
      (Verifier.log definesItself.2 definesItself.1).Nodup := by
  obtain ⟨-, -, -, -, hnodup, -⟩ := verification_ends definesItself_built definesItself.1
  have hnested : definesItself.2.NestedInItself ⟨0⟩ :=
    .tail (.single (by decide : (⟨1⟩ : BlockId) ∈ definesItself.2.nested ⟨0⟩))
      (by decide : (⟨0⟩ : BlockId) ∈ definesItself.2.nested ⟨1⟩)
  exact ⟨definesItself_built, hnested, rfl, rfl, hnodup⟩

end StagedGraph
