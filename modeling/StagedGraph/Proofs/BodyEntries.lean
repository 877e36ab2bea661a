import StagedGraph.Proofs.LoopTests

/-!
# When a body is entered

To execute a fragment of a program is to execute parts of it (`Interpreter.Starts`), and the body of
a function is entered where a chain of parts comes to an invocation of the function: in the state
that the arguments leave, with the parameters bound in a scope of their own (`EntersBody`).

Every step settles on one result only. So the entries of a run can be listed along the text of the
program: those of a block are those of its statements up to the first that does not end normally, and
an invocation adds one to those of its arguments and of the body that it enters.
-/

namespace StagedGraph

open Relation

variable {R H : Type}

/-- There is no invocation of a function in the tree. -/
inductive Term.CallFree : Term R → Prop
  | literal {v} : CallFree (.literal v)
  | var {x} : CallFree (.var x)
  | neg {t} : CallFree t → CallFree (.neg t)
  | native {n ts} : (∀ t ∈ ts, CallFree t) → CallFree (.invoke (.native n) ts)

namespace Interpreter

variable [Scalar R]

/-- Executing the fragment from this state, the body of the function is entered in this other
state. -/
def EntersBody (p : Program R H) (mode : LoopScope) (x : Fragment) (s : RunState R H) (g : FuncId)
    (t : RunState R H) : Prop :=
  ∃ e u vs v, ReflTransGen (Starts p mode) (x, s) (.expr e, u) ∧
    Invoking p mode e u (.callable g) vs v ∧ p.Admits g vs.length ∧ t = v.entered p g vs

variable {p : Program R H} {mode : LoopScope} {x y : Fragment} {e cond : ExprId} {b : BlockId}
  {st : Stmt} {rest : List Stmt} {f g : FuncId} {s t u : RunState R H}

theorem EntersBody.head (h : Starts p mode (x, s) (y, t)) (hy : EntersBody p mode y t g u) :
    EntersBody p mode x s g u := by
  obtain ⟨e, v, vs, w, hy, hrest⟩ := hy
  exact ⟨e, v, vs, w, .head h hy, hrest⟩

/-- A body that is entered in executing a fragment is invoked by the fragment itself, or it is entered
in executing a part of it. -/
theorem EntersBody.cases (h : EntersBody p mode x s g u) :
    (∃ e vs v, x = .expr e ∧ Invoking p mode e s (.callable g) vs v ∧ p.Admits g vs.length ∧
        u = v.entered p g vs) ∨
      ∃ y t, Starts p mode (x, s) (y, t) ∧ EntersBody p mode y t g u := by
  obtain ⟨e, v, vs, w, h, hrest⟩ := h
  rcases h.cases_head with he | ⟨⟨y, t⟩, hstart, h⟩
  · cases he
    exact .inl ⟨e, vs, w, rfl, hrest⟩
  · exact .inr ⟨y, t, hstart, e, v, vs, w, h, hrest⟩

/-- A fragment that is no expression only enters what its parts enter. -/
theorem entersBody_iff_of_ne (hx : ∀ e, x ≠ .expr e) :
    EntersBody p mode x s g u ↔ ∃ y t, Starts p mode (x, s) (y, t) ∧ EntersBody p mode y t g u := by
  constructor
  · intro h
    rcases h.cases with ⟨e, _, _, he, -⟩ | h
    · exact absurd he (hx e)
    · exact h
  · rintro ⟨y, t, hstart, h⟩
    exact h.head hstart

/-! ### Expressions -/

/-- An expression enters what its operands enter, and the body of the function that it invokes, and
what this body enters. -/
theorem EntersBody.expr_cases (h : EntersBody p mode (.expr e) s g u) :
    (∃ a, p.expr e = .neg a ∧ EntersBody p mode (.expr a) s g u) ∨
      (∃ callee es, p.expr e = .invoke callee es ∧ EntersBody p mode (.args es) s g u) ∨
      ∃ f vs v, Invoking p mode e s (.callable f) vs v ∧ p.Admits f vs.length ∧
        (g = f ∧ u = v.entered p f vs ∨
          EntersBody p mode (.block (p.func f).body) (v.entered p f vs) g u) := by
  rcases h.cases with ⟨_, vs, v, he, hcall, hadmits, hu⟩ | ⟨_, _, hstart, h⟩
  · cases he
    exact .inr (.inr ⟨g, vs, v, hcall, hadmits, .inl ⟨rfl, hu⟩⟩)
  · cases hstart with
    | operand he => exact .inl ⟨_, he, h⟩
    | arguments he => exact .inr (.inl ⟨_, _, he, h⟩)
    | body hcall hadmits => exact .inr (.inr ⟨_, _, _, hcall, hadmits, .inr h⟩)

theorem not_entersBody_args {ts : List (Term R)} {es : List ExprId}
    (hes : List.Forall₂ (Term.At p) ts es)
    (h : ∀ t ∈ ts, ∀ e s, t.At p e → ¬ EntersBody p mode (.expr e) s g u) :
    ¬ EntersBody p mode (.args es) s g u := by
  intro henters
  induction hes generalizing s with
  | nil =>
    obtain ⟨_, _, hstart, -⟩ := (entersBody_iff_of_ne (by nofun)).1 henters
    cases hstart
  | @cons t e ts es he _ ih =>
    obtain ⟨_, _, hstart, henters⟩ := (entersBody_iff_of_ne (by nofun)).1 henters
    cases hstart with
    | first => exact h t List.mem_cons_self e s he henters
    | later _ => exact ih (fun t' ht' => h t' (List.mem_cons_of_mem t ht')) henters

/-- Where no function is invoked, no body is entered. -/
theorem not_entersBody_of_callFree {term : Term R} (hfree : term.CallFree) (he : term.At p e) :
    ¬ EntersBody p mode (.expr e) s g u := by
  intro h
  induction hfree generalizing e s with
  | literal =>
    cases he with | literal he =>
    rcases h.expr_cases with ⟨_, he', -⟩ | ⟨_, _, he', -⟩ | ⟨_, _, _, ⟨_, he', -⟩, -⟩ <;>
      cases he.symm.trans he'
  | var =>
    cases he with | var he =>
    rcases h.expr_cases with ⟨_, he', -⟩ | ⟨_, _, he', -⟩ | ⟨_, _, _, ⟨_, he', -⟩, -⟩ <;>
      cases he.symm.trans he'
  | neg _ ih =>
    cases he with | neg he ha =>
    rcases h.expr_cases with ⟨_, he', h⟩ | ⟨_, _, he', -⟩ | ⟨_, _, _, ⟨_, he', -⟩, -⟩ <;>
      cases he.symm.trans he'
    exact ih ha h
  | native _ ih =>
    cases he with | invoke he hes =>
    rcases h.expr_cases with ⟨_, he', -⟩ | ⟨_, _, he', h⟩ | ⟨_, _, _, ⟨_, he', -⟩, -⟩ <;>
      cases he.symm.trans he'
    exact not_entersBody_args hes (fun t ht e s he h => ih t ht he h) h

/-- **An invocation enters the body of its function**, in the state that its arguments leave, and then
what this body enters. -/
theorem entersBody_call_iff {ts : List (Term R)} {vs : List (Value R)}
    (he : (Term.invoke (.callable f) ts).At p e) (hfree : ∀ t ∈ ts, t.CallFree)
    (hargs : EvaluatesAll p mode ts s vs t) (hadmits : p.Admits f vs.length) :
    EntersBody p mode (.expr e) s g u ↔ g = f ∧ u = t.entered p f vs ∨
      EntersBody p mode (.block (p.func f).body) (t.entered p f vs) g u := by
  cases he with | invoke he hes =>
  have hcall : Invoking p mode e s (.callable f) vs t := ⟨_, he, hargs _ hes⟩
  constructor
  · intro h
    rcases h.expr_cases with ⟨_, he', -⟩ | ⟨_, _, he', h⟩ | ⟨_, _, _, ⟨_, he', hargs'⟩, -, h⟩ <;>
      cases he.symm.trans he'
    · refine absurd h (not_entersBody_args hes fun t ht _ _ he => ?_)
      exact not_entersBody_of_callFree (hfree t ht) he
    · obtain ⟨hvs, rfl⟩ := (hargs _ hes).unique hargs'
      cases hvs
      exact h
  · rintro (⟨rfl, rfl⟩ | h)
    · exact ⟨e, s, vs, t, .refl, hcall, hadmits, rfl⟩
    · exact h.head (.body hcall hadmits)

/-! ### Statements -/

theorem entersBody_block_iff :
    EntersBody p mode (.block b) s g u ↔ EntersBody p mode (.stmts (p.block b)) s g u := by
  refine (entersBody_iff_of_ne (by nofun)).trans ?_
  constructor
  · rintro ⟨_, _, hstart, h⟩
    cases hstart
    exact h
  · exact fun h => ⟨_, _, .statements, h⟩

theorem entersBody_program_iff {root : BlockId} :
    EntersBody p mode (.program root) s g u ↔ EntersBody p mode (.block root) s g u := by
  refine (entersBody_iff_of_ne (by nofun)).trans ?_
  constructor
  · rintro ⟨_, _, hstart, h⟩
    cases hstart
    exact h
  · exact fun h => ⟨_, _, .root, h⟩

/-- What is entered in executing statements, one of them enters. -/
theorem EntersBody.of_stmts {sts : List Stmt} (h : EntersBody p mode (.stmts sts) s g u) :
    ∃ st ∈ sts, ∃ t, EntersBody p mode (.stmt st) t g u := by
  induction sts generalizing s with
  | nil =>
    obtain ⟨_, _, hstart, -⟩ := (entersBody_iff_of_ne (by nofun)).1 h
    cases hstart
  | cons st sts ih =>
    obtain ⟨_, _, hstart, h⟩ := (entersBody_iff_of_ne (by nofun)).1 h
    cases hstart with
    | here => exact ⟨st, List.mem_cons_self, s, h⟩
    | after _ =>
      obtain ⟨st', hst', t, h⟩ := ih h
      exact ⟨st', List.mem_cons_of_mem st hst', t, h⟩

/-- What a single statement enters does not depend on how it ends. -/
theorem entersBody_singleton_iff :
    EntersBody p mode (.stmts [st]) s g u ↔ EntersBody p mode (.stmt st) s g u := by
  refine (entersBody_iff_of_ne (by nofun)).trans ⟨?_, fun h => ⟨_, _, .here, h⟩⟩
  rintro ⟨_, _, hstart, h⟩
  cases hstart with
  | here => exact h
  | after _ =>
    obtain ⟨_, hst, -⟩ := h.of_stmts
    cases hst

/-- Statements in a row enter what the first of them enters, and if it ends normally what the others
enter after it. -/
theorem entersBody_cons_iff {r : Except Stop (Flow R)}
    (hst : Settles (fun fuel => stmt p mode fuel st) s r t) :
    EntersBody p mode (.stmts (st :: rest)) s g u ↔
      EntersBody p mode (.stmt st) s g u ∨
        r = .ok .normal ∧ EntersBody p mode (.stmts rest) t g u := by
  refine (entersBody_iff_of_ne (by nofun)).trans ?_
  constructor
  · rintro ⟨_, _, hstart, h⟩
    cases hstart with
    | here => exact .inl h
    | after hst' =>
      obtain ⟨hr, rfl⟩ := hst.unique hst'
      exact .inr ⟨hr, h⟩
  · rintro (h | ⟨rfl, h⟩)
    · exact ⟨_, _, .here, h⟩
    · exact ⟨_, _, .after hst, h⟩

/-- A statement with no blocks under it enters what its expression enters. -/
theorem entersBody_stmt_iff (h : st.guarded = []) :
    EntersBody p mode (.stmt st) s g u ↔ ∃ e ∈ st.exprs, EntersBody p mode (.expr e) s g u := by
  refine (entersBody_iff_of_ne (by nofun)).trans ?_
  constructor
  · rintro ⟨_, _, hstart, henters⟩
    cases hstart with
    | operandOf he => exact ⟨_, he, henters⟩
    | thenBlock _ | loopBody _ | loopAgain _ _ => cases h
  · rintro ⟨e, he, henters⟩
    exact ⟨_, _, .operandOf he, henters⟩

/-- A condition, and the block under it if it holds. -/
theorem entersBody_ifThen_iff {holds : Bool}
    (htest : Settles (fun fuel => test (eval p mode fuel) cond) s (.ok holds) t) :
    EntersBody p mode (.stmt (.ifThen cond b)) s g u ↔ EntersBody p mode (.expr cond) s g u ∨
      holds = true ∧ EntersBody p mode (.block b) t g u := by
  refine (entersBody_iff_of_ne (by nofun)).trans ?_
  constructor
  · rintro ⟨_, _, hstart, h⟩
    cases hstart with
    | operandOf he =>
      obtain rfl := List.mem_singleton.1 he
      exact .inl h
    | thenBlock htest' =>
      obtain ⟨hholds, rfl⟩ := htest.unique htest'
      cases hholds
      exact .inr ⟨rfl, h⟩
  · rintro (h | ⟨rfl, h⟩)
    · exact ⟨_, _, .operandOf (List.mem_singleton_self cond), h⟩
    · exact ⟨_, _, .thenBlock htest, h⟩

end Interpreter

end StagedGraph
