import StagedGraph.Proofs.Fuel
import StagedGraph.Proofs.Solver.Reuse

/-!
# Runs on buffers of the wrong lengths

The lengths of the caller's buffers are checked when a solver is staged, and not when it runs.
The kernels check what they are given, however, and a run meets every buffer of the caller in
one of them: the solution in the first product, the right side in the first residual, the
position in the last statement. So a run that has a report ran on buffers of the right lengths
(`System.fits_of_report`), and a run on others fails with an error (`System.run_fails`).
-/

namespace StagedGraph

variable {R : Type} [Scalar R]

omit [Scalar R] in
/-- A product that is written to a buffer of the operator's dimension changes no length. -/
theorem Heap.sameLengths_matvec {op : LinearOperator R} (hdim : 0 < op.dim) {h : Heap R}
    {out x : BufferId} (hx : h.length x = op.dim) (hout : h.length out = op.dim) :
    h.SameLengths (h.matvec op out x) := by
  obtain ⟨y, hy, hlen⟩ := op.apply_some (h.read x) hdim hx
  rw [matvec, hy]
  exact sameLengths_write (hlen.trans hout.symm)

namespace Kernel

/-- How a run may stop in which a kernel refuses its arguments: a message is reported as an error,
with whatever names and trace, and an abort stays one. -/
inductive Refusal.StopsWith : Refusal → Stop → Prop
  | failed (message : String) (e : EvalError) : StopsWith (.failed message) (.error e)
  | aborted : StopsWith .aborted .aborted

theorem axpy_refuses {h : Heap R} {ans a b : BufferId} (k : R)
    (hlen : h.length ans ≠ h.length a ∨ h.length ans ≠ h.length b) :
    ∃ message, axpy [.buffer ans, .buffer a, .float k, .buffer b] h =
      .error (.failed message) h := by
  rcases hr : axpy [.buffer ans, .buffer a, .float k, .buffer b] h with ⟨v, h'⟩ | ⟨message | _, h'⟩
  · obtain ⟨_, _, _, _, ho, -⟩ := axpy_eq_ok_iff.1 hr
    obtain rfl := Value.buffer.inj (Option.some.inj ho.output)
    obtain rfl := Value.buffer.inj (Option.some.inj ho.left)
    obtain rfl := Value.buffer.inj (Option.some.inj ho.right)
    exact absurd ho.length_right (hlen.resolve_left (not_not_intro ho.length_left))
  · rw [axpy_refusesFirst _ hr]
    exact ⟨message, rfl⟩
  · exact absurd hr (axpy_ne_aborted _ h h')

omit [Scalar R] in
theorem matvec_refuses {op : LinearOperator R} {h : Heap R} {x : BufferId}
    (hlen : h.length x ≠ op.dim) (out : BufferId) :
    ∃ message, matvec op [.buffer out, .buffer x] h = .error (.failed message) h := by
  have hoperands : ¬ ∃ out' x', MatvecOperands op [.buffer out, .buffer x] h out' x' := by
    rintro ⟨_, _, ho⟩
    obtain rfl := Value.buffer.inj (Option.some.inj ho.input)
    exact hlen ho.length_input.symm
  rcases hr : matvec op [.buffer out, .buffer x] h with ⟨v, h'⟩ | ⟨message | _, h'⟩
  · obtain ⟨_, _, _, ho, -⟩ := matvec_eq_ok_iff.1 hr
    exact absurd ⟨_, _, ho⟩ hoperands
  · rw [matvec_refusesFirst op _ hr]
    exact ⟨message, rfl⟩
  · obtain ⟨⟨_, _, ho, -⟩, -⟩ := matvec_eq_aborted_iff.1 hr
    exact absurd ⟨_, _, ho⟩ hoperands

end Kernel

namespace Solver

variable {p : Program R (Heap R)} {op : LinearOperator R} {config : Config R} {w : Workspace}
  {s t : RunState R (Heap R)} {terms : List (Term R)} {vs : List (Value R)} {h h' : Heap R}
  {refusal : Kernel.Refusal}

/-- A call of a kernel that refuses its arguments stops the run. -/
theorem evaluates_refused {n : NativeId} {name : String} {arity : Nat}
    {kernel : List (Value R) → Kernel.Step R (Value R)}
    (hn : p.native n = Kernel.native name arity kernel)
    (hargs : EvaluatesAll p .shared terms s vs t) (harity : vs.length = arity)
    (hk : kernel vs t.host = .error refusal h) :
    ∃ why u, refusal.StopsWith why ∧ Evaluates p .shared (Text.call n terms) s (.error why) u := by
  have haccepts : (p.native n).arity.accepts vs.length = true := by
    rw [hn]
    exact beq_iff_eq.2 harity.symm
  cases refusal with
  | failed message =>
    have hop : (p.native n).op vs t.host = (.failed message, h) := by
      rw [hn, Kernel.native_op, hk]
      rfl
    exact ⟨_, _, .failed message _, Evaluates.native hargs haccepts hop⟩
  | aborted =>
    have hop : (p.native n).op vs t.host = (.aborted, h) := by
      rw [hn, Kernel.native_op, hk]
      rfl
    exact ⟨_, _, .aborted, Evaluates.native hargs haccepts hop⟩

/-- If the operator's kernel refuses a vector, there is no product with it. -/
theorem product_refused (hp : Meant p op w) {term : Term R} {a : BufferId}
    (hterm : Evaluates p .shared term s (.ok (.buffer a)) t)
    (hk : Kernel.matvec op [.buffer w.product, .buffer a] t.host = .error refusal h) :
    ∃ why u, refusal.StopsWith why ∧ Evaluates p .shared (Text.product term) s (.error why) u := by
  obtain ⟨why, u, hwhy, hmatvec⟩ := evaluates_refused hp.matvec
    (.cons (.literal (.buffer w.product)) (.cons (.var (lookup_entered hp t a)) .nil)) rfl hk
  have hbody : ExecutesAll p .shared (Text.mulBody w) _ (.error why) u :=
    .last (.expr_error hmatvec) (by simp)
  have hcall := Evaluates.call (.cons hterm .nil) hp.mul_sealed (by rw [hp.mul_params]; rfl)
    hp.mul_body hbody
  cases hwhy with
  | failed message e => exact ⟨_, _, .failed message _, hcall⟩
  | aborted => exact ⟨_, _, .aborted, hcall⟩

/-- The first residual. -/
def Text.firstResidual (w : Workspace) : Term R :=
  Text.call Text.axpy [Text.buffer w.residual, Text.buffer w.rhs,
    Text.number (Scalar.ofInt64 (-1)), Text.product (Text.buffer w.solution)]

/-- Where there is no first residual, nothing else is done. -/
theorem setup_error {why : Stop}
    (hfirst : Evaluates p .shared (Text.firstResidual w) (.fresh h) (.error why) t)
    (rest : List (Code R)) :
    ExecutesAll p .shared (Text.setup w ++ rest) (.fresh h) (.error why) t :=
  .cons .funcDef (.last (.expr_error hfirst) (by simp))

/-- The statements before the loop stop if the first product is refused. -/
theorem setup_stops (hp : Meant p op w)
    (hk : Kernel.matvec op [.buffer w.product, .buffer w.solution] h = .error refusal h')
    (rest : List (Code R)) :
    ∃ why t, refusal.StopsWith why ∧
      ExecutesAll p .shared (Text.setup w ++ rest) (.fresh h) (.error why) t := by
  obtain ⟨why, t, hwhy, hrefused⟩ :=
    product_refused (s := .fresh h) hp (.literal (.buffer w.solution)) hk
  have hargs : EvaluatesAll p .shared
      [Text.buffer w.residual, Text.buffer w.rhs, Text.number (Scalar.ofInt64 (-1))] (.fresh h)
      [.buffer w.residual, .buffer w.rhs, .float (Scalar.ofInt64 (-1))] (.fresh h) :=
    .cons (.literal _) (.cons (.literal _) (.cons (.literal _) .nil))
  exact ⟨why, t, hwhy, setup_error (.invoke_error hargs hrefused) rest⟩

/-- They fail if the solution or the right side has a wrong length. -/
theorem setup_fails (hp : Meant p op w) (hdim : 0 < op.dim) (hown : h.Fits op.dim w.own)
    (hwrong : h.length w.solution ≠ op.dim ∨ h.length w.rhs ≠ op.dim) (rest : List (Code R)) :
    ∃ e t, ExecutesAll p .shared (Text.setup w ++ rest) (.fresh h) (.error (.error e)) t := by
  have hresidual : h.length w.residual = op.dim := hown _ (by simp [Workspace.own])
  have hproduct : h.length w.product = op.dim := hown _ (by simp [Workspace.own])
  -- either the product is refused, or the residual is
  by_cases hsolution : h.length w.solution = op.dim
  · have hrhs : h.length w.rhs ≠ op.dim := hwrong.resolve_left (not_not_intro hsolution)
    -- the product does not look at the right side, so that any other buffer may stand for it
    have hs : Setting p op { w with rhs := w.solution } (w.solution :: w.own) :=
      ⟨⟨hp.operators, hp.axpy, hp.dot, hp.copy, hp.matvec, hp.mul_sealed, hp.mul_params,
        hp.mul_body, hp.strings⟩, hdim, by simp [Workspace.all, Workspace.own]⟩
    have hfits : h.Fits op.dim (w.solution :: w.own) := List.forall_mem_cons.2 ⟨hsolution, hown⟩
    have hsame := Heap.sameLengths_matvec hdim hsolution hproduct
    have hlen : (h.matvec op w.product w.solution).length w.residual ≠
        (h.matvec op w.product w.solution).length w.rhs := by
      rw [hsame, hsame, hresidual]
      exact hrhs.symm
    obtain ⟨message, hk⟩ :=
      Kernel.axpy_refuses (b := w.product) (Scalar.ofInt64 (-1)) (.inl hlen)
    have hrefused : ∃ why t, (Kernel.Refusal.failed message).StopsWith why ∧
        Evaluates p .shared (Text.firstResidual w) (.fresh h) (.error why) t :=
      evaluates_refused hp.axpy (.cons (.literal _) (.cons (.literal _) (.cons (.literal _)
        (.cons (evaluates_product hs (.literal (.buffer w.solution)) hfits List.mem_cons_self)
          .nil)))) rfl hk
    obtain ⟨_, t, ⟨⟩, hfirst⟩ := hrefused
    exact ⟨_, t, setup_error hfirst rest⟩
  · obtain ⟨message, hk⟩ := Kernel.matvec_refuses hsolution w.product
    obtain ⟨_, t, ⟨⟩, hsetup⟩ := setup_stops hp hk rest
    exact ⟨_, t, hsetup⟩

/-- The staged program fails if a buffer of the caller has a wrong length. -/
theorem stagedText_fails (config : Config R) (hp : Meant p op w) (hdim : 0 < op.dim)
    (hkeeps : ∀ n args (h : Heap R), h.SameLengths ((p.native n).op args h).2)
    {position : Option (R × BufferId)} {root : BlockId}
    (hroot : Code.AtBlock p (stagedText config w position) root) (hown : h.Fits op.dim w.own)
    (hwrong : (h.length w.solution ≠ op.dim ∨ h.length w.rhs ≠ op.dim) ∨
      ∃ dt x, position = some (dt, x) ∧ h.length x ≠ op.dim) :
    ∃ e t, ExecutesAll p .shared (stagedText config w position) (.fresh h) (.error (.error e)) t := by
  by_cases hfirst : h.length w.solution ≠ op.dim ∨ h.length w.rhs ≠ op.dim
  · exact setup_fails hp hdim hown hfirst _
  obtain ⟨dt, x, rfl, hx⟩ := hwrong.resolve_left hfirst
  obtain ⟨hsolution, hrhs⟩ : h.length w.solution = op.dim ∧ h.length w.rhs = op.dim := by
    simpa only [not_or, ne_eq, not_not] using hfirst
  have hs : Setting p op w w.all := ⟨hp, hdim, fun b hb => hb⟩
  have hfits : h.Fits op.dim w.all :=
    List.forall_mem_cons.2 ⟨hrhs, List.forall_mem_cons.2 ⟨hsolution, hown⟩⟩
  obtain ⟨t₁, hsetup, h₁⟩ := setup_simulates hs hfits
  obtain ⟨r, t₂, hguarded, hmirrors⟩ := guarded_simulates config hs h₁ rfl
  rcases hsolve : Direct.guarded op config w (Direct.start op w h) with b | s
  all_goals rw [hsolve] at hmirrors
  · obtain ⟨rfl, -, -⟩ := hmirrors
    exact ⟨_, t₂, hsetup.append (.last hguarded (by simp))⟩
  -- what is left is the step of the position, whose length is what it was
  obtain ⟨rfl, h₂⟩ := hmirrors
  have hbefore := hsetup.append (.cons hguarded .nil)
  have hlaws := Laws.ofHost Heap.SameLengths.refl Heap.SameLengths.trans hkeeps
  have hsame : h.SameLengths t₂.host := by
    have htext : stagedText config w (some (dt, x)) =
        (Text.setup w ++ [Text.guarded config w]) ++ Text.advance w (some (dt, x)) := by
      rw [List.append_assoc]
      rfl
    rw [Code.AtBlock, htext] at hroot
    have hrun := hbefore _ (List.forall₂_take_append _ _ _ hroot.flip).flip
    exact hrun.obeys fun fuel => hlaws.execAll (hlaws.stmt .shared fuel) _
  have hlen : t₂.host.length x ≠ t₂.host.length w.solution := by
    rw [hsame, hsame, hsolution]
    exact hx
  obtain ⟨message, hk⟩ := Kernel.axpy_refuses (a := x) dt (.inr hlen)
  obtain ⟨_, t₃, ⟨⟩, hrefused⟩ := evaluates_refused hp.axpy (.cons (.literal _) (.cons (.literal _)
    (.cons (.literal _) (.cons (.literal _) .nil)))) rfl hk
  exact ⟨_, t₃, hsetup.append (.cons hguarded (.last (.expr_error hrefused) (by simp)))⟩

/-- A run of a solver that ended ends in the same way with more fuel. -/
theorem Staged.executeIn_eq_of_le {solver : Staged R} {m n : Nat} (hmn : m ≤ n)
    (hend : (solver.run m h).1 ≠ .error (.stopped .outOfFuel)) :
    solver.program.executeIn .default n solver.root h =
      solver.program.executeIn .default m solver.root h := by
  refine Program.executeIn_eq_of_le hmn fun hout => hend ?_
  rw [run_of_error (Prod.ext hout rfl)]

theorem Staged.run_eq_of_le {solver : Staged R} {m n : Nat} (hmn : m ≤ n)
    (hend : (solver.run m h).1 ≠ .error (.stopped .outOfFuel)) :
    solver.run n h = solver.run m h := by
  rw [run, run, Program.execute, Program.execute, executeIn_eq_of_le hmn hend]

section Runs

variable {system : System R} {h₀ : Heap R}

/-- If the text of a solver stops, its runs stop in the same way. -/
theorem System.run_stops {why : Stop}
    (htext : ExecutesAll (system.solver config h₀).program .shared
      (stagedText config (system.workspace h₀) (system.advance config)) (.fresh h) (.error why) t) :
    ∃ enough, ∀ fuel, enough ≤ fuel →
      ((system.solver config h₀).run fuel h).1 = .error (.stopped why) := by
  obtain ⟨enough, hexec⟩ := Program.executeIn_of_settles (system.solver_verify config h₀)
    (.run_error (system.solver_text config h₀) htext : Settles (fun fuel => Interpreter.run _
      ExecutionConfig.default.loopScope fuel _) _ _ t)
  exact ⟨enough, fun fuel hfuel => congrArg Prod.fst (Staged.run_of_error (hexec fuel hfuel))⟩

/-- A run begins with a product with the solution, and stops there if it is refused. -/
theorem System.run_refused (config : Config R)
    (hk : Kernel.matvec system.operator
      [.buffer (system.workspace h₀).product, .buffer system.solution] h = .error refusal h') :
    ∃ why, refusal.StopsWith why ∧ ∃ enough, ∀ fuel, enough ≤ fuel →
      ((system.solver config h₀).run fuel h).1 = .error (.stopped why) := by
  obtain ⟨why, t, hwhy, hsetup⟩ := setup_stops (system.solver_meant config h₀) hk
    (Text.guarded config (system.workspace h₀) ::
      Text.advance (system.workspace h₀) (system.advance config))
  exact ⟨why, hwhy, System.run_stops hsetup⟩

/-- **A run on buffers of the wrong lengths fails**, given that the solver's own have theirs. -/
theorem System.run_fails (hdim : 0 < system.operator.dim)
    (hown : h.Fits system.operator.dim (system.workspace h₀).own)
    (hwrong : ¬ h.Fits system.operator.dim (system.callers config)) :
    ∃ e enough, ∀ fuel, enough ≤ fuel →
      ((system.solver config h₀).run fuel h).1 = .error (.stopped (.error e)) := by
  have hwhich : (h.length system.solution ≠ system.operator.dim ∨
      h.length system.rhs ≠ system.operator.dim) ∨
      ∃ dt x, system.advance config = some (dt, x) ∧ h.length x ≠ system.operator.dim := by
    by_contra hright
    simp only [not_or, ne_eq, not_not, not_exists, not_and] at hright
    obtain ⟨⟨hsolution, hrhs⟩, hx⟩ := hright
    refine hwrong (List.forall_mem_cons.2 ⟨hrhs, List.forall_mem_cons.2 ⟨hsolution, ?_⟩⟩)
    intro b hb
    obtain ⟨⟨dt, b⟩, hdt, rfl⟩ := List.mem_map.1 hb
    exact hx dt b (Option.mem_toList.1 hdt)
  obtain ⟨e, t, htext⟩ := stagedText_fails config (system.solver_meant config h₀) hdim
    (System.native_sameLengths (.of_dim_pos hdim) config h₀) (system.solver_text config h₀) hown
    hwhich
  exact ⟨e, System.run_stops htext⟩

/-- **A run with a report ran on buffers of the right lengths**, given that the solver's own have
theirs. -/
theorem System.fits_of_report {fuel : Nat} {r : Report R}
    (hdim : 0 < system.operator.dim) (hown : h.Fits system.operator.dim (system.workspace h₀).own)
    (hrun : ((system.solver config h₀).run fuel h).1 = .ok r) :
    h.Fits system.operator.dim (system.callers config) := by
  by_contra hwrong
  obtain ⟨e, enough, hfails⟩ := System.run_fails hdim hown hwrong
  have hfails := hfails (max enough fuel) (Nat.le_max_left ..)
  rw [Staged.run_eq_of_le (Nat.le_max_right enough fuel) (by rw [hrun]; nofun), hrun] at hfails
  cases hfails

end Runs

end Solver

end StagedGraph
