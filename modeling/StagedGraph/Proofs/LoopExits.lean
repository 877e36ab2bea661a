import StagedGraph.Proofs.Fuel
import StagedGraph.Proofs.Nesting

/-!
# How a loop is left

A loop that ends normally was left by a break in its body, or by its condition; the state
that it leaves does not say which. `BreaksOff` is the first of the two, for one loop, and
`BreaksLoop` says it of the loops in a list of statements, those under conditions included.

Both follow the run step by step. As every step settles on one result only, they can be
refuted as well as shown along the text of a program.
-/

namespace StagedGraph

variable {R H : Type}

/-- A statement without blocks that depend on a condition. -/
def Code.isPlain : Code R → Bool
  | .ifThen _ _ => false
  | .whileLoop _ _ => false
  | _ => true

/-- Where such statements stand, there is neither a condition nor a loop. -/
theorem Code.guarded_eq_nil {p : Program R H} {codes : List (Code R)} {sts : List Stmt}
    (h : List.Forall₂ (Code.At p) codes sts) (hplain : ∀ code ∈ codes, code.isPlain = true) :
    ∀ st ∈ sts, st.guarded = [] := by
  induction h with
  | nil => exact nofun
  | cons hst _ ih =>
    have hplain := List.forall_mem_cons.1 hplain
    refine List.forall_mem_cons.2 ⟨?_, ih hplain.2⟩
    cases hst with
    | ifThen | whileLoop => cases hplain.1
    | expr | assign | breakLoop | returnVoid | returnValue | funcDef => rfl

namespace Interpreter

variable [Scalar R]

/-- A loop is left by a break, in its first iteration or after iterations that end normally. -/
inductive BreaksOff (p : Program R H) (mode : LoopScope) (cond : ExprId) (body : BlockId) :
    RunState R H → Prop
  | now {s t u} : Settles (fun fuel => test (eval p mode fuel) cond) s (.ok true) t →
      Settles (fun fuel => iteration mode (exec p mode fuel body)) t (.ok .breakLoop) u →
      BreaksOff p mode cond body s
  | later {s t u} : Settles (fun fuel => test (eval p mode fuel) cond) s (.ok true) t →
      Settles (fun fuel => iteration mode (exec p mode fuel body)) t (.ok .normal) u →
      BreaksOff p mode cond body u → BreaksOff p mode cond body s

/-- When these statements are executed, a loop that is one of them, or that stands under a
condition, is left by a break. -/
inductive BreaksLoop (p : Program R H) (mode : LoopScope) : List Stmt → RunState R H → Prop
  | loop {cond body rest s} : BreaksOff p mode cond body s →
      BreaksLoop p mode (.whileLoop cond body :: rest) s
  | inside {cond b rest s t} : Settles (fun fuel => test (eval p mode fuel) cond) s (.ok true) t →
      BreaksLoop p mode (p.block b) t → BreaksLoop p mode (.ifThen cond b :: rest) s
  | after {st rest s t} : Settles (fun fuel => stmt p mode fuel st) s (.ok .normal) t →
      BreaksLoop p mode rest t → BreaksLoop p mode (st :: rest) s

variable {p : Program R H} {mode : LoopScope} {cond : ExprId} {body b : BlockId}
  {before rest : List Stmt} {st : Stmt} {s t u : RunState R H}

/-! ### One loop -/

theorem not_breaksOff (htest : Settles (fun fuel => test (eval p mode fuel) cond) s (.ok false) t) :
    ¬ BreaksOff p mode cond body s := by
  rintro (⟨htest', -⟩ | ⟨htest', -, -⟩)
  all_goals cases (htest.unique htest').1

/-- After an iteration that ends normally, the loop is left as it is left from there. -/
theorem breaksOff_iff (htest : Settles (fun fuel => test (eval p mode fuel) cond) s (.ok true) t)
    (hbody : Settles (fun fuel => iteration mode (exec p mode fuel body)) t (.ok .normal) u) :
    BreaksOff p mode cond body s ↔ BreaksOff p mode cond body u := by
  refine ⟨fun h => ?_, .later htest hbody⟩
  rcases h with ⟨htest', hbody'⟩ | ⟨htest', hbody', hlater⟩
  all_goals obtain ⟨-, rfl⟩ := htest.unique htest'
  · cases (hbody.unique hbody').1
  · obtain ⟨-, rfl⟩ := hbody.unique hbody'
    exact hlater

/-! ### Statements -/

/-- There is no loop to leave where there is none, not even under a condition. -/
theorem not_breaksLoop (hplain : ∀ st ∈ rest, st.guarded = []) (s : RunState R H) :
    ¬ BreaksLoop p mode rest s := by
  intro h
  induction h with
  | loop _ => cases hplain _ List.mem_cons_self
  | inside _ _ _ => cases hplain _ List.mem_cons_self
  | after _ _ ih => exact ih fun st hst => hplain st (List.mem_cons_of_mem _ hst)

theorem breaksLoop_cons_iff (hplain : st.guarded = [])
    (hst : Settles (fun fuel => stmt p mode fuel st) s (.ok .normal) t) :
    BreaksLoop p mode (st :: rest) s ↔ BreaksLoop p mode rest t := by
  refine ⟨fun h => ?_, .after hst⟩
  rcases h with _ | _ | ⟨hst', hrest⟩
  · cases hplain
  · cases hplain
  · obtain ⟨-, rfl⟩ := hst.unique hst'
    exact hrest

/-- Statements that are neither loops nor conditions may be skipped. -/
theorem breaksLoop_append_iff (hplain : ∀ st ∈ before, st.guarded = [])
    (hbefore : Settles (fun fuel => execAll (stmt p mode fuel) before) s (.ok .normal) t) :
    BreaksLoop p mode (before ++ rest) s ↔ BreaksLoop p mode rest t := by
  induction before generalizing s with
  | nil =>
    obtain ⟨-, rfl⟩ := hbefore.unique (.of_forall fun _ => rfl)
    exact Iff.rfl
  | cons st before ih =>
    obtain ⟨flow, u, hst, hrest⟩ := hbefore.of_bind (stmt_steady p mode st)
    have hplain := List.forall_mem_cons.1 hplain
    cases flow with
    | normal => exact (breaksLoop_cons_iff hplain.1 hst).trans (ih hplain.2 hrest)
    | breakLoop => cases (hrest.unique (.of_forall fun _ => rfl)).1
    | returned v => cases (hrest.unique (.of_forall fun _ => rfl)).1

/-- Under a condition that holds, with no loop after it. -/
theorem breaksLoop_ifThen_iff (hplain : ∀ st ∈ rest, st.guarded = [])
    (htest : Settles (fun fuel => test (eval p mode fuel) cond) s (.ok true) t) :
    BreaksLoop p mode (.ifThen cond b :: rest) s ↔ BreaksLoop p mode (p.block b) t := by
  refine ⟨fun h => ?_, .inside htest⟩
  rcases h with _ | ⟨htest', hb⟩ | ⟨-, hrest⟩
  · obtain ⟨-, rfl⟩ := htest.unique htest'
    exact hb
  · exact absurd hrest (not_breaksLoop hplain _)

/-- A loop that is the only statement. -/
theorem breaksLoop_singleton_iff :
    BreaksLoop p mode [.whileLoop cond body] s ↔ BreaksOff p mode cond body s := by
  refine ⟨fun h => ?_, .loop⟩
  rcases h with hoff | _ | ⟨-, hrest⟩
  · exact hoff
  · cases hrest

end Interpreter

end StagedGraph
