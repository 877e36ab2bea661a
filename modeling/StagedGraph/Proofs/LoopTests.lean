import StagedGraph.Proofs.Backtraces
import StagedGraph.Proofs.LoopExits
import StagedGraph.Proofs.LoopScopes

/-!
# When a loop is tested

To execute a fragment of a program is to execute parts of it, each from the state that the part
before it left. `Starts` has one rule for each way in which a part starts, and `TestsLoop` is where
a chain of them comes to a loop. Then the condition of the loop is evaluated next: this is so
before the first iteration, and again after each one that ends normally.

As every step settles on one result only, the states in which loops are tested can be followed
along the text of a program, like the states in which they are left. Only fragments without loops
have to be known to have none (`Fragment.LoopFree`), wherever their functions are.
-/

namespace StagedGraph

open Relation

variable {R H : Type}

/-! ### Fragments without loops -/

/-- The statement is no loop, and there is none in the blocks that stand under it. -/
def Stmt.LoopFree (p : Program R H) (st : Stmt) : Prop :=
  (∀ cond body, st ≠ .whileLoop cond body) ∧ ∀ b ∈ st.guarded, p.LoopFree b

/-- There is no loop among the statements of the fragment. Those of the functions that it calls do
not count. -/
def Fragment.LoopFree (p : Program R H) : Fragment → Prop
  | expr _ => True
  | args _ => True
  | stmt st => st.LoopFree p
  | stmts sts => ∀ st ∈ sts, st.LoopFree p
  | block b => p.LoopFree b
  | program root => p.LoopFree root

theorem Program.loopFree_iff {p : Program R H} {b : BlockId} :
    p.LoopFree b ↔ ∀ st ∈ p.block b, st.LoopFree p := by
  constructor
  · intro h st hst
    refine ⟨fun cond body he => h b .refl cond body (he ▸ hst), fun c hc => h.inside ⟨st, hst, hc⟩⟩
  · intro h c hc cond body hloop
    rcases hc.cases_head with rfl | ⟨d, ⟨st, hst, hd⟩, hdc⟩
    · exact (h _ hloop).1 cond body rfl
    · exact (h st hst).2 d hd c hdc cond body hloop

/-- Where only statements without blocks stand, there are no loops. -/
theorem Stmt.LoopFree.of_unguarded {p : Program R H} {st : Stmt} (h : st.guarded = []) :
    st.LoopFree p := by
  refine ⟨fun cond body he => ?_, fun b hb => ?_⟩
  · rw [he] at h
    cases h
  · rw [h] at hb
    cases hb

/-- A function that was never issued has no body. -/
theorem Program.body_of_size_le {p : Program R H} {f : FuncId} (h : p.funcs.size ≤ f.index) :
    p.block (p.func f).body = [] := by
  rw [func, Array.getD_eq_getD_getElem?, Array.getElem?_eq_none h]
  exact block_of_size_le (Nat.le_refl _)

/-- A statement that is no loop, and that depends on one condition at most. -/
def Code.isShallow : Code R → Bool
  | .whileLoop _ _ => false
  | .ifThen _ codes => codes.all Code.isPlain
  | _ => true

theorem Code.loopFree {p : Program R H} {code : Code R} {st : Stmt} (h : code.At p st)
    (hshallow : code.isShallow = true) : st.LoopFree p := by
  cases h with
  | whileLoop => cases hshallow
  | @ifThen _ cond codes b _ hb =>
    refine ⟨nofun, fun c hc => ?_⟩
    obtain rfl := List.mem_singleton.1 hc
    exact .of_unguarded (Code.guarded_eq_nil hb (List.all_eq_true.1 hshallow))
  | expr | assign | breakLoop | returnVoid | returnValue | funcDef =>
    exact Stmt.LoopFree.of_unguarded rfl

/-- Where such statements stand, there are no loops. -/
theorem Code.all_loopFree {p : Program R H} {codes : List (Code R)} {sts : List Stmt}
    (h : List.Forall₂ (Code.At p) codes sts) (hshallow : ∀ code ∈ codes, code.isShallow = true) :
    ∀ st ∈ sts, st.LoopFree p := by
  induction h with
  | nil => exact nofun
  | cons hst _ ih =>
    have hshallow := List.forall_mem_cons.1 hshallow
    exact List.forall_mem_cons.2 ⟨Code.loopFree hst hshallow.1, ih hshallow.2⟩

namespace Interpreter

variable [Scalar R]

/-! ### Parts -/

/-- Executing the first fragment from its state, the second is executed from its state as a part
of it. -/
inductive Starts (p : Program R H) (mode : LoopScope) :
    Fragment × RunState R H → Fragment × RunState R H → Prop
  | operand {e a s} : p.expr e = .neg a → Starts p mode (.expr e, s) (.expr a, s)
  | arguments {e callee es s} : p.expr e = .invoke callee es →
      Starts p mode (.expr e, s) (.args es, s)
  | body {e g s vs t} : Invoking p mode e s (.callable g) vs t → p.Admits g vs.length →
      Starts p mode (.expr e, s) (.block (p.func g).body, t.entered p g vs)
  | first {e es s} : Starts p mode (.args (e :: es), s) (.expr e, s)
  | later {e es s v t} : Settles (fun fuel => eval p mode fuel e) s (.ok v) t →
      Starts p mode (.args (e :: es), s) (.args es, t)
  | operandOf {st e s} : e ∈ st.exprs → Starts p mode (.stmt st, s) (.expr e, s)
  | thenBlock {cond b s t} : Settles (fun fuel => test (eval p mode fuel) cond) s (.ok true) t →
      Starts p mode (.stmt (.ifThen cond b), s) (.block b, t)
  | loopBody {cond b s t} : Settles (fun fuel => test (eval p mode fuel) cond) s (.ok true) t →
      Starts p mode (.stmt (.whileLoop cond b), s) (.block b, t.iterating mode)
  | loopAgain {cond b s t u} :
      Settles (fun fuel => test (eval p mode fuel) cond) s (.ok true) t →
      Settles (fun fuel => iteration mode (exec p mode fuel b)) t (.ok .normal) u →
      Starts p mode (.stmt (.whileLoop cond b), s) (.stmt (.whileLoop cond b), u)
  | here {st sts s} : Starts p mode (.stmts (st :: sts), s) (.stmt st, s)
  | after {st sts s t} : Settles (fun fuel => stmt p mode fuel st) s (.ok .normal) t →
      Starts p mode (.stmts (st :: sts), s) (.stmts sts, t)
  | statements {b s} : Starts p mode (.block b, s) (.stmts (p.block b), s)
  | root {b s} : Starts p mode (.program b, s) (.block b, s)

/-- Executing a fragment from this state, the condition of a loop is evaluated in this other
state. -/
def TestsLoop (p : Program R H) (mode : LoopScope) (x : Fragment) (s t : RunState R H) : Prop :=
  ∃ cond body, ReflTransGen (Starts p mode) (x, s) (.stmt (.whileLoop cond body), t)

/-- After one iteration of a loop that ends normally, its condition is evaluated again. -/
def Repeats (p : Program R H) (mode : LoopScope) (cond : ExprId) (body : BlockId)
    (s u : RunState R H) : Prop :=
  ∃ t, Settles (fun fuel => test (eval p mode fuel) cond) s (.ok true) t ∧
    Settles (fun fuel => iteration mode (exec p mode fuel body)) t (.ok .normal) u

variable {p : Program R H} {mode : LoopScope} {cond : ExprId} {body b : BlockId} {st : Stmt}
  {before rest : List Stmt} {s t u : RunState R H} {x y : Fragment}

theorem TestsLoop.head (h : Starts p mode (x, s) (y, t)) (hy : TestsLoop p mode y t u) :
    TestsLoop p mode x s u := by
  obtain ⟨cond, body, hy⟩ := hy
  exact ⟨cond, body, .head h hy⟩

/-- A loop that is tested in executing a fragment is the fragment, or it is tested in executing a
part of it. -/
theorem TestsLoop.cases (h : TestsLoop p mode x s u) :
    (∃ cond body, x = .stmt (.whileLoop cond body) ∧ s = u) ∨
      ∃ y t, Starts p mode (x, s) (y, t) ∧ TestsLoop p mode y t u := by
  obtain ⟨cond, body, h⟩ := h
  rcases h.cases_head with he | ⟨⟨y, t⟩, hstart, hrest⟩
  · cases he
    exact .inl ⟨cond, body, rfl, rfl⟩
  · exact .inr ⟨y, t, hstart, cond, body, hrest⟩

/-! ### Nothing to test -/

theorem Starts.loopFree (hp : p.LoopsOutside) {x y : Fragment × RunState R H}
    (h : Starts p mode x y) (hx : x.1.LoopFree p) : y.1.LoopFree p := by
  cases h with
  | operand _ | arguments _ | first | later _ | operandOf _ => trivial
  | @body e g s vs t _ _ => exact hp g
  | thenBlock _ => exact hx.2 _ (List.mem_singleton_self _)
  | loopBody _ | loopAgain _ _ => exact absurd rfl (hx.1 _ _)
  | here => exact hx _ List.mem_cons_self
  | after _ => exact fun st hst => hx st (List.mem_cons_of_mem _ hst)
  | statements => exact Program.loopFree_iff.1 hx
  | root => exact hx

/-- Where there is no loop, none is tested. -/
theorem not_testsLoop (hp : p.LoopsOutside) (hx : x.LoopFree p) : ¬ TestsLoop p mode x s u := by
  rintro ⟨cond, body, h⟩
  have hfree (y : Fragment × RunState R H) (hy : ReflTransGen (Starts p mode) (x, s) y) :
      y.1.LoopFree p := by
    induction hy with
    | refl => exact hx
    | tail _ hstart ih => exact hstart.loopFree hp ih
  exact (hfree _ h).1 cond body rfl

/-! ### Along the text -/

theorem testsLoop_program_iff {root : BlockId} :
    TestsLoop p mode (.program root) s u ↔ TestsLoop p mode (.stmts (p.block root)) s u := by
  constructor
  · intro h
    rcases h.cases with ⟨_, _, hx, -⟩ | ⟨_, _, hstart, h⟩
    · cases hx
    · cases hstart
      rcases h.cases with ⟨_, _, hx, -⟩ | ⟨_, _, hstart, h⟩
      · cases hx
      · cases hstart
        exact h
  · exact fun h => .head .root (.head .statements h)

/-- A statement without loops may be skipped. -/
theorem testsLoop_cons_iff (hp : p.LoopsOutside) (hfree : st.LoopFree p)
    (hst : Settles (fun fuel => stmt p mode fuel st) s (.ok .normal) t) :
    TestsLoop p mode (.stmts (st :: rest)) s u ↔ TestsLoop p mode (.stmts rest) t u := by
  constructor
  · intro h
    rcases h.cases with ⟨_, _, hx, -⟩ | ⟨_, _, hstart, h⟩
    · cases hx
    · cases hstart with
      | here => exact absurd h (not_testsLoop hp hfree)
      | after hst' =>
        obtain ⟨-, rfl⟩ := hst.unique hst'
        exact h
  · exact fun h => .head (.after hst) h

theorem testsLoop_append_iff (hp : p.LoopsOutside) (hfree : ∀ st ∈ before, st.LoopFree p)
    (hbefore : Settles (fun fuel => execAll (stmt p mode fuel) before) s (.ok .normal) t) :
    TestsLoop p mode (.stmts (before ++ rest)) s u ↔ TestsLoop p mode (.stmts rest) t u := by
  induction before generalizing s with
  | nil =>
    obtain ⟨-, rfl⟩ := hbefore.unique (.of_forall fun _ => rfl)
    exact Iff.rfl
  | cons st before ih =>
    obtain ⟨flow, v, hst, hrest⟩ := hbefore.of_bind (stmt_steady p mode st)
    have hfree := List.forall_mem_cons.1 hfree
    cases flow with
    | normal => exact (testsLoop_cons_iff hp hfree.1 hst).trans (ih hfree.2 hrest)
    | breakLoop => cases (hrest.unique (.of_forall fun _ => rfl)).1
    | returned v => cases (hrest.unique (.of_forall fun _ => rfl)).1

/-- No loop after a statement is tested if there is none. -/
theorem testsLoop_of_here (hp : p.LoopsOutside) (hrest : ∀ st ∈ rest, st.LoopFree p)
    (h : TestsLoop p mode (.stmts (st :: rest)) s u) : TestsLoop p mode (.stmt st) s u := by
  rcases h.cases with ⟨_, _, hx, -⟩ | ⟨_, _, hstart, h⟩
  · cases hx
  · cases hstart with
    | here => exact h
    | after _ => exact absurd h (not_testsLoop hp hrest)

/-- Under a condition, with no loop after it. -/
theorem testsLoop_ifThen_iff (hp : p.LoopsOutside) (hrest : ∀ st ∈ rest, st.LoopFree p)
    {holds : Bool} (htest : Settles (fun fuel => test (eval p mode fuel) cond) s (.ok holds) t) :
    TestsLoop p mode (.stmts (.ifThen cond b :: rest)) s u ↔
      holds = true ∧ TestsLoop p mode (.stmts (p.block b)) t u := by
  constructor
  · intro h
    rcases (testsLoop_of_here hp hrest h).cases with ⟨_, _, hx, -⟩ | ⟨_, _, hstart, h⟩
    · cases hx
    · cases hstart with
      | operandOf _ => exact absurd h (not_testsLoop hp trivial)
      | thenBlock htest' =>
        obtain ⟨hholds, rfl⟩ := htest.unique htest'
        cases hholds
        rcases h.cases with ⟨_, _, hx, -⟩ | ⟨_, _, hstart, h⟩
        · cases hx
        · cases hstart
          exact ⟨rfl, h⟩
  · rintro ⟨rfl, h⟩
    exact .head .here (.head (.thenBlock htest) (.head .statements h))

/-- **A loop is tested at the start, and again after each iteration that ends normally.** There is
no loop in its body. -/
theorem testsLoop_while_iff (hp : p.LoopsOutside) (hbody : p.LoopFree body) :
    TestsLoop p mode (.stmts [.whileLoop cond body]) s u ↔
      ReflTransGen (Repeats p mode cond body) s u := by
  constructor
  · intro htests
    obtain ⟨_, _, h⟩ : TestsLoop p mode (.stmt (.whileLoop cond body)) s u :=
      testsLoop_of_here hp (List.forall_mem_nil _) htests
    clear htests
    generalize hx : (Fragment.stmt (.whileLoop cond body), s) = x at h
    induction h using ReflTransGen.head_induction_on generalizing s with
    | refl =>
      cases hx
      exact .refl
    | head hstart hrest ih =>
      cases hx
      cases hstart with
      | operandOf _ => exact absurd ⟨_, _, hrest⟩ (not_testsLoop (x := .expr _) hp trivial)
      | loopBody _ => exact absurd ⟨_, _, hrest⟩ (not_testsLoop (x := .block body) hp hbody)
      | loopAgain htest hagain => exact .head ⟨_, htest, hagain⟩ (ih rfl)
  · intro h
    refine .head .here ⟨cond, body, ?_⟩
    induction h using ReflTransGen.head_induction_on with
    | refl => exact .refl
    | head hrepeats _ ih =>
      obtain ⟨t, htest, hagain⟩ := hrepeats
      exact .head (.loopAgain htest hagain) ih

end Interpreter

end StagedGraph
