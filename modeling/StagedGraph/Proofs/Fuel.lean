import StagedGraph.Proofs.BigSteps
import StagedGraph.Proofs.SideBySide

/-!
# More fuel changes nothing

Fuel bounds a run and has no other part in it: a run that ends within its fuel ends in the
same way with more of it (`Interpreter.all_agrees`). So a step that ended once has settled,
and it has settled on one result only (`Settles.of_ended`, `Settles.unique`).

The induction is on the smaller amount of fuel. The two runs go side by side through the same
states (`same_run`), and how the first ends does not count if it has run out of fuel.
-/

namespace StagedGraph

variable {R H α β : Type}

/-- Both runs are in the same state, wherever that is. -/
def SameState (_ : Unit) (s t : RunState R H) : Prop := t = s

namespace Run

/-- Wherever the first step has not run out of fuel, the second does the same. -/
def Agrees (x y : Run R H α) : Prop := ∀ s, (x s).1 ≠ .error .outOfFuel → y s = x s

namespace Agrees

theorem refl (x : Run R H α) : Agrees x x := fun _ _ => rfl

theorem starved (y : Run R H α) : Agrees (stop .outOfFuel) y := fun _ h => absurd rfl h

theorem bind {x y : Run R H α} {f g : α → Run R H β} (hxy : Agrees x y)
    (hfg : ∀ a, Agrees (f a) (g a)) : Agrees (x >>= f) (y >>= g) := by
  intro s h
  rw [bind_apply] at h ⊢
  rw [bind_apply]
  have hs := hxy s
  rcases hx : x s with ⟨why | a, t⟩
  all_goals rw [hx] at h hs
  · rw [hs fun hout => h (congrArg Except.error (Except.error.inj hout))]
  · rw [hs nofun]
    exact hfg a t h

theorem inScope {kind : ScopeKind} {x y : Run R H α} (h : Agrees x y) :
    Agrees (Run.inScope kind x) (Run.inScope kind y) := by
  intro s hs
  unfold Run.inScope
  rw [h _ hs]

/-- To agree is to do the same from the same state, unless the fuel is used up. -/
theorem iff_tracks {x y : Run R H α} :
    Agrees x y ↔ Tracks (· ≠ some .outOfFuel) (SameState ()) x y := by
  refine ⟨fun h s t hst hcounts => ?_, fun h s hs => ?_⟩
  · cases hst
    rw [h s fun hout => hcounts (by rw [hout]; rfl)]
    exact ⟨rfl, rfl⟩
  · obtain ⟨hr, ht⟩ := h s s rfl fun hout => hs (ending_eq_some.1 hout)
    exact Prod.ext hr ht

end Agrees

end Run

/-- The same run twice, where the first may run out of fuel. -/
theorem same_run (p : Program R H) :
    SideBySide p (· ≠ some .outOfFuel) (SameState (R := R) (H := H)) id where
  counts_result := nofun
  counts_fault _ := nofun
  lookup _ h _ := by cases h; rfl
  host h := by cases h; rfl
  calls h := by cases h; rfl
  called _ _ h := by cases h; rfl
  assigned _ _ h := by cases h; rfl
  entered _ _ h := by cases h; rfl
  left h := by cases h; rfl
  closed h := by cases h; rfl

namespace Interpreter

open Run

theorem iteration_agrees (mode : LoopScope) {x y : Run R H (Flow R)} (h : Agrees x y) :
    Agrees (iteration mode x) (iteration mode y) := by
  cases mode with
  | shared => exact h
  | perIteration => exact h.inScope

variable [Scalar R] {m n : Nat}

/-- **What ends within its fuel ends in the same way with more of it.** -/
theorem all_agrees (p : Program R H) (mode : LoopScope) (hmn : m ≤ n) :
    (∀ e, Agrees (Interpreter.eval p mode m e) (Interpreter.eval p mode n e)) ∧
      (∀ b, Agrees (Interpreter.exec p mode m b) (Interpreter.exec p mode n b)) ∧
      ∀ c b, Agrees (Interpreter.loop p mode m c b) (Interpreter.loop p mode n c b) := by
  induction m generalizing n with
  | zero => exact ⟨fun _ => .starved _, fun _ => .starved _, fun _ _ => .starved _⟩
  | succ m ih =>
    obtain ⟨n, rfl⟩ : ∃ k, n = k + 1 := ⟨n - 1, by omega⟩
    obtain ⟨heval, hexec, hloop⟩ := ih (Nat.le_of_succ_le_succ hmn)
    have heval' (e : ExprId) := Agrees.iff_tracks.1 (heval e)
    have hexec' (b : BlockId) := Agrees.iff_tracks.1 (hexec b)
    refine ⟨fun e => ?_, fun b => ?_, fun c b => ?_⟩
    · rw [Interpreter.eval, Interpreter.eval]
      exact Agrees.iff_tracks.2 ((same_run p).evalExpr heval' (fun f => hexec' _) _)
    · rw [Interpreter.exec, Interpreter.exec]
      exact Agrees.iff_tracks.2 ((same_run p).execAll fun st _ => (same_run p).execStmt heval'
        (fun _ b _ => hexec' b) fun c b _ => Agrees.iff_tracks.1 (hloop c b))
    · rw [Interpreter.loop, Interpreter.loop]
      refine (Agrees.iff_tracks.2 ((same_run p).test heval' c)).bind fun holds => ?_
      cases holds with
      | false => exact .refl _
      | true =>
        refine (iteration_agrees mode (hexec b)).bind fun flow => ?_
        cases flow with
        | normal => exact hloop c b
        | breakLoop => exact .refl _
        | returned v => exact .refl _

end Interpreter

/-! ### Steps that settle -/

/-- With more fuel the step does what it did, unless it had run out of it. -/
def Steady (x : Nat → Run R H α) : Prop := ∀ m n, m ≤ n → Run.Agrees (x m) (x n)

namespace Settles

variable {x : Nat → Run R H α} {f : Nat → α → Run R H β} {s t u : RunState R H}

/-- A step that ended has settled. -/
theorem of_ended (hx : Steady x) {fuel : Nat} {r : Except Stop α} (h : x fuel s = (r, t))
    (hr : r ≠ .error .outOfFuel) : Settles x s r t :=
  ⟨fuel, fun n hn => (hx fuel n hn s (by rwa [h])).trans h⟩

theorem of_ok (hx : Steady x) {fuel : Nat} {a : α} (h : x fuel s = (.ok a, t)) :
    Settles x s (.ok a) t :=
  of_ended hx h nofun

/-- A step that failed has settled, too. -/
theorem of_error (hx : Steady x) {fuel : Nat} {e : EvalError}
    (h : x fuel s = (.error (.error e), t)) : Settles x s (.error (.error e)) t :=
  of_ended hx h nofun

/-- A step settles on one result only. -/
theorem unique {r r' : Except Stop α} {t' : RunState R H} (h : Settles x s r t)
    (h' : Settles x s r' t') : r = r' ∧ t = t' := by
  obtain ⟨m, h⟩ := h
  obtain ⟨n, h'⟩ := h'
  have heq := (h (max m n) (Nat.le_max_left m n)).symm.trans (h' (max m n) (Nat.le_max_right m n))
  exact Prod.mk.inj heq

/-- A step that has a result after another one has settled together with it. -/
theorem of_bind (hx : Steady x) {b : β} (h : Settles (fun fuel => x fuel >>= f fuel) s (.ok b) u) :
    ∃ a t, Settles x s (.ok a) t ∧ Settles (fun fuel => f fuel a) t (.ok b) u := by
  obtain ⟨m, h⟩ := h
  have hm := h m (Nat.le_refl m)
  dsimp only at hm
  rw [Run.bind_apply] at hm
  rcases hr : x m s with ⟨why | a, t⟩
  · rw [hr] at hm
    cases hm
  · obtain ⟨k, hsettles⟩ := of_ok hx hr
    refine ⟨a, t, ⟨k, hsettles⟩, max m k, fun n hn => ?_⟩
    exact (Run.bind_apply_ok (hsettles n (by omega))).symm.trans (h n (by omega))

/-- What a step settles on obeys the law that the step obeys. -/
theorem obeys {r : Except Stop α} {L : Law R H} (h : Settles x s r t)
    (hx : ∀ fuel, Run.Obeys L (x fuel)) : L s (ending r) t := by
  obtain ⟨n, h⟩ := h
  have hlaw := hx n s
  rwa [h n (Nat.le_refl n)] at hlaw

end Settles

section

variable [Scalar R] {p : Program R H} {mode : LoopScope}

theorem Interpreter.eval_steady (p : Program R H) (mode : LoopScope) (e : ExprId) :
    Steady fun fuel => eval p mode fuel e :=
  fun _ _ hmn => (all_agrees p mode hmn).1 e

theorem Interpreter.evalAll_steady (p : Program R H) (mode : LoopScope) (es : List ExprId) :
    Steady fun fuel => evalAll (eval p mode fuel) es :=
  fun _ _ hmn => Run.Agrees.iff_tracks.2 ((same_run p).evalAll
    (fun e => Run.Agrees.iff_tracks.1 ((all_agrees p mode hmn).1 e)) es)

theorem Interpreter.test_steady (p : Program R H) (mode : LoopScope) (cond : ExprId) :
    Steady fun fuel => test (eval p mode fuel) cond :=
  fun _ _ hmn => Run.Agrees.iff_tracks.2 ((same_run p).test
    (fun e => Run.Agrees.iff_tracks.1 ((all_agrees p mode hmn).1 e)) cond)

theorem Interpreter.exec_steady (p : Program R H) (mode : LoopScope) (b : BlockId) :
    Steady fun fuel => exec p mode fuel b :=
  fun _ _ hmn => (all_agrees p mode hmn).2.1 b

theorem Interpreter.iteration_steady (p : Program R H) (mode : LoopScope) (b : BlockId) :
    Steady fun fuel => iteration mode (exec p mode fuel b) :=
  fun m n hmn => iteration_agrees mode (exec_steady p mode b m n hmn)

theorem Interpreter.stmt_steady (p : Program R H) (mode : LoopScope) (s : Stmt) :
    Steady fun fuel => stmt p mode fuel s := fun _ _ hmn =>
  have ⟨heval, hexec, hloop⟩ := all_agrees p mode hmn
  Run.Agrees.iff_tracks.2 ((same_run p).execStmt (fun e => Run.Agrees.iff_tracks.1 (heval e))
    (fun _ b _ => Run.Agrees.iff_tracks.1 (hexec b)) fun c b _ => Run.Agrees.iff_tracks.1 (hloop c b))

theorem Interpreter.run_steady (p : Program R H) (mode : LoopScope) (root : BlockId) :
    Steady fun fuel => run p mode fuel root :=
  fun m n hmn => (exec_steady p mode root m n hmn).bind fun _ => .refl _

/-- An execution that ended ends in the same way with more fuel. -/
theorem Program.executeIn_eq_of_le {config : ExecutionConfig} {root : BlockId} {host : H}
    {m n : Nat} (hmn : m ≤ n) (h : (p.executeIn config m root host).1 ≠ .error .outOfFuel) :
    p.executeIn config n root host = p.executeIn config m root host := by
  rw [executeIn] at h ⊢
  rw [executeIn]
  cases hverify : p.verify root with
  | error stop => rfl
  | ok u =>
    rw [hverify] at h
    have hrun := Interpreter.run_steady p config.loopScope root m n hmn (.fresh host)
    dsimp only at h hrun ⊢
    rw [hrun]
    intro hout
    rcases hr : Interpreter.run p config.loopScope m root (.fresh host) with ⟨why | u, t⟩
    all_goals rw [hr] at h hout
    · exact h (congrArg Except.error (Except.error.inj hout))
    · cases hout

end

end StagedGraph
