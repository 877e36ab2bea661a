import Mathlib.Data.List.Forall2
import StagedGraph.Graph.Basic

/-!
# Programs as trees

A program refers to its parts by number. A reader of the program sees trees: each number
replaced by what stands there. `Term.At` and `Code.At` say that a tree stands at a place of
a program; `Program.term?` and `Program.code?` unfold a place into its tree, down to a given
depth, and what they yield does stand there (`Program.term?_at`, `Program.code?_at`).
-/

namespace StagedGraph

/-- An expression as a tree. -/
inductive Term (R : Type) where
  | literal (v : Value R)
  | var (x : Name)
  | invoke (callee : Callee) (args : List (Term R))
  | neg (operand : Term R)

/-- A statement as a tree. A definition shows the parameters and the body of its function. -/
inductive Code (R : Type) where
  | expr (t : Term R)
  | assign (target : Name) (value : Term R)
  | ifThen (cond : Term R) (thenBlock : List (Code R))
  | whileLoop (cond : Term R) (body : List (Code R))
  | breakLoop
  | returnVoid
  | returnValue (value : Term R)
  | funcDef (f : FuncId) (params : List Name) (body : List (Code R))

variable {R H : Type}

/-! ### Trees at places -/

/-- The tree of an expression. -/
inductive Term.At (p : Program R H) : Term R → ExprId → Prop
  | literal {e v} : p.expr e = .literal v → Term.At p (.literal v) e
  | var {e x} : p.expr e = .var x → Term.At p (.var x) e
  | invoke {e callee es ts} : p.expr e = .invoke callee es → List.Forall₂ (Term.At p) ts es →
      Term.At p (.invoke callee ts) e
  | neg {e a t} : p.expr e = .neg a → Term.At p t a → Term.At p (.neg t) e

/-- The tree of a statement. -/
inductive Code.At (p : Program R H) : Code R → Stmt → Prop
  | expr {t e} : t.At p e → Code.At p (.expr t) (.expr e)
  | assign {x t e} : t.At p e → Code.At p (.assign x t) (.assign x e)
  | ifThen {c e cs b} : c.At p e → List.Forall₂ (Code.At p) cs (p.block b) →
      Code.At p (.ifThen c cs) (.ifThen e b)
  | whileLoop {c e cs b} : c.At p e → List.Forall₂ (Code.At p) cs (p.block b) →
      Code.At p (.whileLoop c cs) (.whileLoop e b)
  | breakLoop : Code.At p .breakLoop .breakLoop
  | returnVoid : Code.At p .returnVoid (.returnValue none)
  | returnValue {t e} : t.At p e → Code.At p (.returnValue t) (.returnValue (some e))
  | funcDef {f cs} : List.Forall₂ (Code.At p) cs (p.block (p.func f).body) →
      Code.At p (.funcDef f (p.func f).params cs) (.funcDef f)

/-- The trees of the statements of a block. -/
abbrev Code.AtBlock (p : Program R H) (cs : List (Code R)) (b : BlockId) : Prop :=
  List.Forall₂ (Code.At p) cs (p.block b)

/-! ### Unfolding -/

namespace Program

/-- The tree of an expression, if it is no deeper than this. -/
def term? (p : Program R H) : Nat → ExprId → Option (Term R)
  | 0, _ => none
  | depth + 1, e =>
    match p.expr e with
    | .literal v => some (.literal v)
    | .var x => some (.var x)
    | .invoke callee es => (es.mapM (p.term? depth)).map (.invoke callee)
    | .neg a => (p.term? depth a).map .neg

/-- The tree of a statement, if it is no deeper than this. -/
def code? (p : Program R H) : Nat → Stmt → Option (Code R)
  | 0, _ => none
  | depth + 1, s =>
    match s with
    | .expr e => (p.term? depth e).map .expr
    | .assign x e => (p.term? depth e).map (.assign x)
    | .ifThen e b => do return .ifThen (← p.term? depth e) (← (p.block b).mapM (p.code? depth))
    | .whileLoop e b => do return .whileLoop (← p.term? depth e) (← (p.block b).mapM (p.code? depth))
    | .breakLoop => some .breakLoop
    | .returnValue none => some .returnVoid
    | .returnValue (some e) => (p.term? depth e).map .returnValue
    | .funcDef f => ((p.block (p.func f).body).mapM (p.code? depth)).map (.funcDef f (p.func f).params)

theorem forall₂_of_mapM {α β : Type} {f : α → Option β} {Q : β → α → Prop}
    (hf : ∀ {a b}, f a = some b → Q b a) {as : List α} {bs : List β} (h : as.mapM f = some bs) :
    List.Forall₂ Q bs as := by
  induction as generalizing bs with
  | nil => cases h; exact .nil
  | cons a as ih =>
    rw [List.mapM_cons] at h
    obtain ⟨b, hb, h⟩ := Option.bind_eq_some_iff.1 h
    obtain ⟨bs', hbs, h⟩ := Option.bind_eq_some_iff.1 h
    cases h
    exact .cons (hf hb) (ih hbs)

/-- The tree that an expression unfolds into stands there. -/
theorem term?_at {p : Program R H} {depth : Nat} {e : ExprId} {t : Term R}
    (h : p.term? depth e = some t) : t.At p e := by
  induction depth generalizing e t with
  | zero => cases h
  | succ depth ih =>
    rw [term?] at h
    split at h
    · next he => cases h; exact .literal he
    · next he => cases h; exact .var he
    · next he =>
      obtain ⟨ts, hts, rfl⟩ := Option.map_eq_some_iff.1 h
      exact .invoke he (forall₂_of_mapM ih hts)
    · next he =>
      obtain ⟨t', ht, rfl⟩ := Option.map_eq_some_iff.1 h
      exact .neg he (ih ht)

/-- **The tree that a statement unfolds into stands there.** -/
theorem code?_at {p : Program R H} {depth : Nat} {s : Stmt} {c : Code R}
    (h : p.code? depth s = some c) : c.At p s := by
  induction depth generalizing s c with
  | zero => cases h
  | succ depth ih =>
    cases s with
    | expr e =>
      obtain ⟨t, ht, rfl⟩ := Option.map_eq_some_iff.1 h
      exact .expr (term?_at ht)
    | assign x e =>
      obtain ⟨t, ht, rfl⟩ := Option.map_eq_some_iff.1 h
      exact .assign (term?_at ht)
    | ifThen e b =>
      obtain ⟨t, ht, h⟩ := Option.bind_eq_some_iff.1 h
      obtain ⟨cs, hcs, h⟩ := Option.bind_eq_some_iff.1 h
      cases h
      exact .ifThen (term?_at ht) (forall₂_of_mapM ih hcs)
    | whileLoop e b =>
      obtain ⟨t, ht, h⟩ := Option.bind_eq_some_iff.1 h
      obtain ⟨cs, hcs, h⟩ := Option.bind_eq_some_iff.1 h
      cases h
      exact .whileLoop (term?_at ht) (forall₂_of_mapM ih hcs)
    | breakLoop => cases h; exact .breakLoop
    | returnValue e =>
      cases e with
      | none => cases h; exact .returnVoid
      | some e =>
        obtain ⟨t, ht, rfl⟩ := Option.map_eq_some_iff.1 h
        exact .returnValue (term?_at ht)
    | funcDef f =>
      obtain ⟨cs, hcs, rfl⟩ := Option.map_eq_some_iff.1 h
      exact .funcDef (forall₂_of_mapM ih hcs)

/-- The trees of a block, if they are no deeper than this. -/
def blockCode? (p : Program R H) (depth : Nat) (b : BlockId) : Option (List (Code R)) :=
  (p.block b).mapM (p.code? depth)

theorem blockCode?_at {p : Program R H} {depth : Nat} {b : BlockId} {cs : List (Code R)}
    (h : p.blockCode? depth b = some cs) : Code.AtBlock p cs b :=
  forall₂_of_mapM code?_at h

end Program

end StagedGraph
