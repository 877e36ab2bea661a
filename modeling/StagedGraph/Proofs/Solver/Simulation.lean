import StagedGraph.Proofs.Solver.Phrases

/-!
# The staged program runs like the direct solver
-/

namespace StagedGraph.Solver

open Direct

variable {R : Type} [Scalar R] {p : Program R (Heap R)} {op : LinearOperator R}
  {config : Config R} {w : Workspace} {bs : List BufferId}

/-- A run stands where the loop of the direct solver stands. -/
structure Stands (p : Program R (Heap R)) (op : LinearOperator R) (w : Workspace)
    (bs : List BufferId) (s : Iterate R) (t : RunState R (Heap R)) : Prop where
  /-- Only the global scope is open. -/
  depth : t.env.depth = 1
  host : t.host = s.heap
  fits : t.host.Fits op.dim bs
  applications : t.history.countP (isCallOf p "matvec") = s.applications
  d : t.env.lookup Text.d = some (.buffer w.direction)
  r2Init : t.env.lookup Text.r2Init = some (.float s.r2Init)
  r2New : t.env.lookup Text.r2New = some (.float s.r2New)
  iter : t.env.lookup Text.iter = some (.int (Int64.ofNat s.iter))

variable {s : Iterate R} {t : RunState R (Heap R)}

namespace Stands

omit [Scalar R] in
/-- A run stays where it stands when it calls another native than the operator's. -/
theorem called (h : Stands p op w bs s t) {n : NativeId} {vs : List (Value R)}
    {outcome : NativeOutcome R} (hn : isCallOf p "matvec" (.called n vs outcome) = false) :
    Stands p op w bs s { t with history := .called n vs outcome :: t.history } where
  depth := h.depth
  host := h.host
  fits := h.fits
  applications := by simp [hn, h.applications]
  d := h.d
  r2Init := h.r2Init
  r2New := h.r2New
  iter := h.iter

theorem called_operator (hs : Setting p op w bs) (h : Stands p op w bs s t) (o : Operator)
    (vs : List (Value R)) (outcome : NativeOutcome R) :
    Stands p op w bs s { t with history := .called (Text.native o) vs outcome :: t.history } :=
  h.called (by rw [isCallOf_operator hs.meant]; cases o <;> rfl)

theorem called_dot (hs : Setting p op w bs) (h : Stands p op w bs s t) (vs : List (Value R))
    (outcome : NativeOutcome R) :
    Stands p op w bs s { t with history := .called Text.dot vs outcome :: t.history } :=
  h.called (by rw [isCallOf_kernel hs.meant.dot]; rfl)

omit [Scalar R] in
/-- A run stays where it stands when it assigns to another variable. -/
theorem assigned (h : Stands p op w bs s t) {x : Name} (v : Value R)
    (hx : x ∉ [Text.d, Text.r2Init, Text.r2New, Text.iter]) :
    Stands p op w bs s (t.assigned x v) := by
  obtain ⟨hd, hinit, hnew, hiter⟩ : x ≠ Text.d ∧ x ≠ Text.r2Init ∧ x ≠ Text.r2New ∧
      x ≠ Text.iter := by simpa using hx
  refine ⟨?_, h.host, h.fits, ?_, ?_, ?_, ?_, ?_⟩
  · simp [Environment.depth_assign, h.depth]
  · simp [isCallOf_assigned, h.applications]
  · simp [Environment.lookup_assign, hd, h.d]
  · simp [Environment.lookup_assign, hinit, h.r2Init]
  · simp [Environment.lookup_assign, hnew, h.r2New]
  · simp [Environment.lookup_assign, hiter, h.iter]

end Stands

/-- The count goes up, and the operator is applied to the direction. -/
theorem apply_simulates (hs : Setting p op w bs) (h : Stands p op w bs s t)
    (hiter : s.iter + 1 < 2 ^ 63) :
    ∃ t', ExecutesAll p .shared Text.apply t (.ok .normal) t' ∧
      Stands p op w bs (s.apply op w) t' ∧ t'.env.lookup Text.q = some (.buffer w.product) := by
  refine ⟨_, .cons (.assign (evaluates_operator hs.meant
      (.cons (.var h.iter) (.cons (.literal (.int 1)) .nil)) rfl (Operator.eval_add_one hiter)))
    (.cons (.assign (evaluates_product hs (.var ?_) h.fits hs.direction_mem)) .nil),
    ⟨?_, ?_, ?_, ?_, ?_, ?_, ?_, ?_⟩, ?_⟩
  · simp +decide [Environment.lookup_assign, h.d]
  · simp [Environment.depth_assign, h.depth]
  · simp [h.host, Iterate.apply]
  · exact h.fits.matvec hs.dim_pos w.product hs.direction_mem
  · simp [isCallOf_assigned, isCallOf_kernel hs.meant.matvec,
      isCallOf_operator hs.meant, Operator.name, h.applications, Iterate.apply]
  all_goals simp +decide [Environment.lookup_assign, h.d, h.r2Init, h.r2New, Iterate.apply]

/-- The length of the step is measured, unless the curvature is zero. -/
theorem measure_simulates (hs : Setting p op w bs) (h : Stands p op w bs s t)
    (hq : t.env.lookup Text.q = some (.buffer w.product))
    (hz : Scalar.isZero (s.heap.dot w.direction w.product) = false) :
    ∃ t', Executes p .shared Text.measure t (.ok .normal) t' ∧ Stands p op w bs s t' ∧
      t'.env.lookup Text.q = some (.buffer w.product) ∧
      t'.env.lookup Text.alpha =
        some (.float (s.r2New / s.heap.dot w.direction w.product)) := by
  rw [← h.host] at hz ⊢
  refine ⟨_, .assign (evaluates_operator hs.meant
      (.cons (.var h.r2New) (.cons (evaluates_dot hs (.cons (.var h.d) (.cons (.var hq) .nil))
        h.fits hs.direction_mem hs.product_mem) .nil)) rfl (Operator.eval_div_numbers _ hz)),
    (((h.called_dot hs _ _).called_operator hs .div _ _).assigned _ (by decide)), ?_, ?_⟩
  · simp +decide [Environment.lookup_assign, hq]
  · simp [Environment.lookup_assign]

/-- A division of two numbers that fails is the last thing that a run does. -/
def FailsAt (b : Breakdown R) (t : RunState R (Heap R)) : Prop :=
  t.history.head? = some (.called (Text.native .div) [.float b.numerator, .float b.divisor]
    (.failed "division by zero"))

/-- The length of the step is not measured if the curvature is zero. -/
theorem measure_fails (hs : Setting p op w bs) (h : Stands p op w bs s t)
    (hq : t.env.lookup Text.q = some (.buffer w.product))
    (hz : Scalar.isZero (s.heap.dot w.direction w.product) = true) :
    ∃ t', Executes p .shared Text.measure t (.error divisionByZero) t' ∧ Stands p op w bs s t' ∧
      FailsAt ⟨s, s.r2New, s.heap.dot w.direction w.product⟩ t' := by
  rw [← h.host] at hz ⊢
  exact ⟨_, .assign_error (evaluates_div_zero hs.meant
      (.cons (.var h.r2New) (.cons (evaluates_dot hs (.cons (.var h.d) (.cons (.var hq) .nil))
        h.fits hs.direction_mem hs.product_mem) .nil)) hz),
    (h.called_dot hs _ _).called_operator hs .div _ _, rfl⟩

/-- The step, and the squared residual after it. -/
theorem move_simulates (hs : Setting p op w bs) (h : Stands p op w bs s t) {alpha : R}
    (hq : t.env.lookup Text.q = some (.buffer w.product))
    (ha : t.env.lookup Text.alpha = some (.float alpha)) :
    ∃ t', ExecutesAll p .shared (Text.move w) t (.ok .normal) t' ∧
      Stands p op w bs (s.move w alpha) t' ∧
      t'.env.lookup Text.r2 = some (.float s.r2New) := by
  have hfits₁ := h.fits.axpy w.solution alpha hs.solution_mem hs.direction_mem
  have hfits₂ := hfits₁.axpy w.residual (-alpha) hs.residual_mem hs.product_mem
  refine ⟨_, .cons (.expr (evaluates_axpy hs (.cons (.literal _) (.cons (.literal _)
      (.cons (.var ha) (.cons (.var h.d) .nil)))) h.fits
      hs.solution_mem hs.solution_mem hs.direction_mem))
    (.cons (.expr (evaluates_axpy hs (.cons (.literal _) (.cons (.literal _)
      (.cons (.neg (.var ha) rfl) (.cons (.var hq) .nil)))) hfits₁
      hs.residual_mem hs.residual_mem hs.product_mem))
    (.cons (.assign (.var h.r2New))
    (.cons (.assign (evaluates_dot hs (.cons (.literal _) (.cons (.literal _) .nil)) hfits₂
      hs.residual_mem hs.residual_mem)) .nil))),
    ⟨?_, ?_, hfits₂, ?_, ?_, ?_, ?_, ?_⟩, ?_⟩
  · simp [Environment.depth_assign, h.depth]
  · simp [h.host, Iterate.move]
  · simp [isCallOf_assigned, isCallOf_kernel hs.meant.dot,
      isCallOf_kernel hs.meant.axpy, h.applications, Iterate.move]
  all_goals
    simp +decide [Environment.lookup_assign, h.d, h.r2Init, h.iter, h.host, Iterate.move]

theorem converged_tests (config : Config R) (hs : Setting p op w bs) (h : Stands p op w bs s t) :
    ∃ t', Tests p .shared (Text.call (Text.native .le) [.var Text.r2New,
          Text.call (Text.native .mul) [.var Text.r2Init,
            Text.number (config.epsilon * config.epsilon)]]) t (s.converged config) t' ∧
      Stands p op w bs s t' ∧ t'.env = t.env := by
  exact ⟨_, .of_bool (evaluates_operator hs.meant (.cons (.var h.r2New)
      (.cons (evaluates_operator hs.meant (.cons (.var h.r2Init) (.cons (.literal _) .nil)) rfl
        (Operator.eval_mul_numbers _ _)) .nil)) rfl (Operator.eval_le_numbers _ _)),
    (h.called_operator hs .mul _ _).called_operator hs .le _ _, rfl⟩

/-- The way out of the loop is taken if the residual is small enough. -/
theorem stop_simulates (config : Config R) (hs : Setting p op w bs) (h : Stands p op w bs s t) :
    ∃ t', Executes p .shared (Text.stop config) t
        (.ok (if s.converged config then .breakLoop else .normal)) t' ∧
      Stands p op w bs s t' ∧ t'.env = t.env := by
  obtain ⟨t', ht, hstands, henv⟩ := converged_tests config hs h
  refine ⟨t', ?_, hstands, henv⟩
  cases hc : s.converged config with
  | true => exact .ifThen (hc ▸ ht) (.last .breakLoop (by simp))
  | false => exact .ifThen_skip (hc ▸ ht)

/-- How much of the direction is kept is found, unless the last residual was zero. -/
theorem weigh_simulates (hs : Setting p op w bs) (h : Stands p op w bs s t) {r2 : R}
    (hr : t.env.lookup Text.r2 = some (.float r2)) (hz : Scalar.isZero r2 = false) :
    ∃ t', Executes p .shared Text.weigh t (.ok .normal) t' ∧ Stands p op w bs s t' ∧
      t'.env.lookup Text.beta = some (.float (s.r2New / r2)) := by
  refine ⟨_, .assign (evaluates_operator hs.meant (.cons (.var h.r2New) (.cons (.var hr) .nil)) rfl
      (Operator.eval_div_numbers _ hz)),
    (h.called_operator hs .div _ _).assigned _ (by decide), ?_⟩
  simp [Environment.lookup_assign]

theorem weigh_fails (hs : Setting p op w bs) (h : Stands p op w bs s t) {r2 : R}
    (hr : t.env.lookup Text.r2 = some (.float r2)) (hz : Scalar.isZero r2 = true) :
    ∃ t', Executes p .shared Text.weigh t (.error divisionByZero) t' ∧ Stands p op w bs s t' ∧
      FailsAt ⟨s, s.r2New, r2⟩ t' := by
  exact ⟨_, .assign_error (evaluates_div_zero hs.meant
      (.cons (.var h.r2New) (.cons (.var hr) .nil)) hz), h.called_operator hs .div _ _, rfl⟩

/-- The next direction. -/
theorem turn_simulates (hs : Setting p op w bs) (h : Stands p op w bs s t) {beta : R}
    (hb : t.env.lookup Text.beta = some (.float beta)) :
    ∃ t', Executes p .shared (Text.turn w) t (.ok .normal) t' ∧
      Stands p op w bs (s.turn w beta) t' := by
  refine ⟨_, .expr (evaluates_axpy hs (.cons (.var h.d) (.cons (.literal _) (.cons (.var hb)
      (.cons (.var h.d) .nil)))) h.fits hs.direction_mem hs.residual_mem hs.direction_mem),
    ⟨h.depth, ?_, h.fits.axpy _ _ hs.residual_mem hs.direction_mem, ?_, h.d, h.r2Init, h.r2New,
      h.iter⟩⟩
  · simp [h.host, Iterate.turn]
  · simp [isCallOf_kernel hs.meant.axpy, h.applications, Iterate.turn]

/-! ### The loop -/

/-- A run ends as the direct solver does: with a state that stands where the solver stands,
or with a division by zero at the same place. -/
def Mirrors (p : Program R (Heap R)) (op : LinearOperator R) (w : Workspace) (bs : List BufferId) :
    Except (Breakdown R) (Iterate R × Bool) → Except Stop (Flow R) → RunState R (Heap R) → Prop
  | .ok (s, last), r, t => r = .ok (if last then .breakLoop else .normal) ∧ Stands p op w bs s t
  | .error b, r, t => r = .error divisionByZero ∧ Stands p op w bs b.iterate t ∧ FailsAt b t

theorem finish_simulates (config : Config R) (hs : Setting p op w bs) (h : Stands p op w bs s t)
    {r2 : R} (hr : t.env.lookup Text.r2 = some (.float r2)) :
    ∃ r t', ExecutesAll p .shared (Text.finish config w) t r t' ∧
      Mirrors p op w bs (s.finish config w r2) r t' := by
  obtain ⟨t₁, hstop, h₁, henv⟩ := stop_simulates config hs h
  rw [← henv] at hr
  rw [Iterate.finish]
  cases hc : s.converged config with
  | true =>
    rw [hc] at hstop
    exact ⟨_, t₁, .last hstop (by simp), rfl, h₁⟩
  | false =>
    rw [hc] at hstop
    cases hz : Scalar.isZero r2 with
    | true =>
      obtain ⟨t₂, hweigh, h₂, hfail⟩ := weigh_fails hs h₁ hr hz
      refine ⟨_, t₂, .cons hstop (.last hweigh (by simp)), ?_⟩
      rw [quotient, if_pos hz]
      exact ⟨rfl, h₂, hfail⟩
    | false =>
      obtain ⟨t₂, hweigh, h₂, hb⟩ := weigh_simulates hs h₁ hr hz
      obtain ⟨t₃, hturn, h₃⟩ := turn_simulates hs h₂ hb
      refine ⟨_, t₃, .cons hstop (.cons hweigh (.cons hturn .nil)), ?_⟩
      rw [quotient, if_neg (ne_true_of_eq_false hz)]
      exact ⟨rfl, h₃⟩

/-- **The body of the loop is one step of the direct solver.** -/
theorem body_simulates (config : Config R) (hs : Setting p op w bs) (h : Stands p op w bs s t)
    (hiter : s.iter + 1 < 2 ^ 63) :
    ∃ r t', ExecutesAll p .shared (Text.body config w) t r t' ∧
      Mirrors p op w bs (step op config w s) r t' := by
  obtain ⟨t₁, happly, h₁, hq⟩ := apply_simulates hs h hiter
  cases hz : Scalar.isZero ((s.apply op w).heap.dot w.direction w.product) with
  | true =>
    obtain ⟨t₂, hmeasure, h₂, hfail⟩ := measure_fails hs h₁ hq hz
    refine ⟨_, t₂, happly.append (.last hmeasure (by simp)), ?_⟩
    rw [step, quotient, if_pos hz]
    exact ⟨rfl, h₂, hfail⟩
  | false =>
    obtain ⟨t₂, hmeasure, h₂, hq, ha⟩ := measure_simulates hs h₁ hq hz
    obtain ⟨t₃, hmove, h₃, hr⟩ := move_simulates hs h₂ hq ha
    obtain ⟨r, t₄, hfinish, hmirrors⟩ := finish_simulates config hs h₃ hr
    refine ⟨r, t₄, happly.append (.cons hmeasure (hmove.append hfinish)), ?_⟩
    rw [step, quotient, if_neg (ne_true_of_eq_false hz)]
    exact hmirrors

/-- The loop goes on while the count is below the limit. -/
theorem count_tests (limit : UInt32) (hs : Setting p op w bs) (h : Stands p op w bs s t)
    (hiter : s.iter < 2 ^ 63) :
    ∃ t', Tests p .shared (Text.call (Text.native .lt)
        [.var Text.iter, .literal (.int (Int64.ofNat limit.toNat))]) t
        (decide (s.iter < limit.toNat)) t' ∧ Stands p op w bs s t' := by
  have hlimit : limit.toNat < 2 ^ 63 := Nat.lt_of_lt_of_le limit.toNat_lt (by decide)
  exact ⟨_, .of_bool (evaluates_operator hs.meant (.cons (.var h.iter)
      (.cons (.literal _) .nil)) rfl (Operator.eval_lt_counts hiter hlimit)),
    h.called_operator hs .lt _ _⟩

/-- **The loop is the loop of the direct solver**, by induction on the iterations left. -/
theorem iterate_simulates (left : Nat) (hs : Setting p op w bs) (h : Stands p op w bs s t)
    (hleft : s.iter + left = config.maxIters.toNat) :
    ∃ r t', Executes p .shared (Text.iterate config w) t r t' ∧
      Mirrors p op w bs ((loop op config w left s).map (·, false)) r t' := by
  have hlimit : config.maxIters.toNat < 2 ^ 32 := config.maxIters.toNat_lt
  induction left generalizing s t with
  | zero =>
    obtain ⟨t₁, htest, h₁⟩ := count_tests config.maxIters hs h (by omega)
    rw [decide_eq_false (by omega)] at htest
    exact ⟨_, t₁, .while_done htest, rfl, h₁⟩
  | succ left ih =>
    obtain ⟨t₁, htest, h₁⟩ := count_tests config.maxIters hs h (by omega)
    rw [decide_eq_true (by omega)] at htest
    obtain ⟨r, t₂, hbody, hmirrors⟩ := body_simulates config hs h₁ (by omega)
    rw [loop]
    rcases hstep : step op config w s with b | ⟨s', last⟩
    · rw [hstep] at hmirrors
      obtain ⟨rfl, h₂, hfail⟩ := hmirrors
      exact ⟨_, t₂, .while_error htest hbody, rfl, h₂, hfail⟩
    · rw [hstep] at hmirrors
      obtain ⟨rfl, h₂⟩ := hmirrors
      cases last with
      | true => exact ⟨_, t₂, .while_break htest hbody, rfl, h₂⟩
      | false =>
        have hiter := (step_counts hstep).1
        obtain ⟨r, t₃, hrest, hmirrors⟩ := ih h₂ (by omega)
        exact ⟨r, t₃, .while_next htest hbody hrest, hmirrors⟩

/-! ### The whole program -/

/-- What comes before the loop brings the run to where the direct solver starts. -/
theorem setup_simulates (hs : Setting p op w bs) {h : Heap R} (hfits : h.Fits op.dim bs) :
    ∃ t, ExecutesAll p .shared (Text.setup w) (.fresh h) (.ok .normal) t ∧
      Stands p op w bs (start op w h) t := by
  have hfits₁ := hfits.matvec hs.dim_pos w.product hs.solution_mem
  have hfits₂ := hfits₁.axpy w.residual (Scalar.ofInt64 (-1)) hs.rhs_mem hs.product_mem
  have hfits₃ := hfits₂.copy w.direction hs.residual_mem
  refine ⟨_, .cons .funcDef
    (.cons (.expr (evaluates_axpy hs (.cons (.literal _) (.cons (.literal _) (.cons (.literal _)
      (.cons (evaluates_product hs (.literal _) hfits hs.solution_mem) .nil)))) hfits₁
      hs.residual_mem hs.rhs_mem hs.product_mem))
    (.cons (.expr (evaluates_copy hs (.cons (.literal _) (.cons (.literal _) .nil)) hfits₂
      hs.direction_mem hs.residual_mem))
    (.cons (.assign (.literal _))
    (.cons (.assign (evaluates_dot hs (.cons (.literal _) (.cons (.literal _) .nil)) hfits₃
      hs.residual_mem hs.residual_mem))
    (.cons (.assign (.var (v := .float (start op w h).r2New) ?_))
    (.cons (.assign (.var (v := .float (start op w h).r2New) ?_))
    (.cons (.assign (.literal _)) .nil))))))),
    ⟨?_, rfl, hfits₃, ?_, ?_, ?_, ?_, ?_⟩⟩
  · simp +decide [Environment.lookup_assign, start]
  · simp +decide [Environment.lookup_assign, start]
  · simp [Environment.depth_assign]
  · simp [isCallOf_assigned, isCallOf_kernel hs.meant.matvec, isCallOf_kernel hs.meant.axpy,
      isCallOf_kernel hs.meant.copy, isCallOf_kernel hs.meant.dot, start]
  all_goals simp +decide [Environment.lookup_assign, start]

/-- The test before the loop. -/
theorem positive_tests (hs : Setting p op w bs) (h : Stands p op w bs s t) :
    ∃ t', Tests p .shared (Text.call (Text.native .gt) [.var Text.r2Init, Text.number Scalar.zero])
        t s.positive t' ∧ Stands p op w bs s t' := by
  exact ⟨_, .of_bool (evaluates_operator hs.meant (.cons (.var h.r2Init)
      (.cons (.literal _) .nil)) rfl (Operator.eval_gt_numbers _ _)),
    h.called_operator hs .gt _ _⟩

theorem guarded_simulates (config : Config R) (hs : Setting p op w bs) (h : Stands p op w bs s t)
    (hiter : s.iter = 0) :
    ∃ r t', Executes p .shared (Text.guarded config w) t r t' ∧
      Mirrors p op w bs ((guarded op config w s).map (·, false)) r t' := by
  obtain ⟨t₁, htest, h₁⟩ := positive_tests hs h
  rw [guarded]
  cases hc : s.positive with
  | false =>
    rw [hc] at htest
    exact ⟨_, t₁, .ifThen_skip htest, rfl, h₁⟩
  | true =>
    rw [hc] at htest
    obtain ⟨r, t₂, hloop, hmirrors⟩ := iterate_simulates config.maxIters.toNat hs h₁
      (by rw [hiter, Nat.zero_add])
    exact ⟨r, t₂, .ifThen htest (.single hloop), hmirrors⟩

/-- The step of the position, if there is one. -/
theorem advance_simulates (hs : Setting p op w bs) (h : Stands p op w bs s t)
    {position : Option (R × BufferId)} (hx : ∀ dt x, position = some (dt, x) → x ∈ bs) :
    ∃ t', ExecutesAll p .shared (Text.advance w position) t (.ok .normal) t' ∧
      Stands p op w bs (s.advance w position) t' := by
  rcases position with _ | ⟨dt, x⟩
  · exact ⟨t, .nil, h⟩
  · have hmem := hx dt x rfl
    refine ⟨_, .cons (.expr (evaluates_axpy hs (.cons (.literal _) (.cons (.literal _)
        (.cons (.literal _) (.cons (.literal _) .nil)))) h.fits hmem hmem hs.solution_mem)) .nil,
      ⟨h.depth, ?_, h.fits.axpy _ _ hmem hs.solution_mem, ?_, h.d, h.r2Init, h.r2New, h.iter⟩⟩
    · simp [h.host, Iterate.advance]
    · simp [isCallOf_kernel hs.meant.axpy, h.applications, Iterate.advance]

/-- **The text of the staged program does what the direct solver does.** -/
theorem stagedText_simulates (config : Config R) (hs : Setting p op w bs) {h : Heap R}
    (hfits : h.Fits op.dim bs) {position : Option (R × BufferId)}
    (hx : ∀ dt x, position = some (dt, x) → x ∈ bs) :
    ∃ r t, ExecutesAll p .shared (stagedText config w position) (.fresh h) r t ∧
      Mirrors p op w bs ((solve op config w position h).map (·, false)) r t := by
  obtain ⟨t₁, hsetup, h₁⟩ := setup_simulates hs hfits
  obtain ⟨r, t₂, hguarded, hmirrors⟩ := guarded_simulates config hs h₁ rfl
  rw [solve]
  rcases hg : guarded op config w (start op w h) with b | s
  · rw [hg] at hmirrors
    obtain ⟨rfl, h₂, hfail⟩ := hmirrors
    exact ⟨_, t₂, hsetup.append (.last hguarded (by simp)), rfl, h₂, hfail⟩
  · rw [hg] at hmirrors
    obtain ⟨rfl, h₂⟩ := hmirrors
    obtain ⟨t₃, hadvance, h₃⟩ := advance_simulates hs h₂ hx
    exact ⟨_, t₃, hsetup.append (.cons hguarded hadvance), rfl, h₃⟩

end StagedGraph.Solver
