import Mathlib.Data.List.Basic
import StagedGraph.Graph.Builder
import StagedGraph.Proofs.Confinement

/-!
# A native that fails ends the run

When a call of a native fails, its error goes through everything that is being executed, up
to the end of the run. On the way nothing is called and nothing is assigned, and the error
keeps the name of the native and its message. No other step of a run fails for a native.

So a run has at most one call that failed, and it is the last thing that the run did
(`FailedLast`). This is a law of runs: it holds of single steps, and a step that has a result
contains no such call, so that steps compose.

A call failed if the record of the run says so, and the record can be relied on: each outcome in it is
what the native answered, on the host that the calls before it had left (`run_answers`).
-/

namespace StagedGraph

variable {R H : Type}

/-- A native was called, and the call failed. -/
def Event.IsFailure : Event R → Prop
  | .called _ _ (.failed _) => True
  | _ => False

/-- Which calls failed among these events, the latest first, of a step that ended so: none,
and then the step did not fail for a native; or the last event only, and then the step failed
for it. -/
inductive FailedLast (p : Program R H) : List (Event R) → Option Stop → Prop
  | none {events : List (Event R)} {o : Option Stop} : (∀ event ∈ events, ¬ event.IsFailure) →
      (∀ e, o = some (.error e) → e.fault.nativeMessage? = .none) → FailedLast p events o
  | last {n : NativeId} {args : List (Value R)} {message : String} {earlier : List (Event R)}
      {trace : List String} : (∀ event ∈ earlier, ¬ event.IsFailure) →
      FailedLast p (.called n args (.failed message) :: earlier)
        (some (.error ⟨.native (p.native n).name message, trace⟩))

namespace FailedLast

variable {p : Program R H} {earlier events : List (Event R)} {o : Option Stop}

/-- A step that has a result contains no call that failed. -/
theorem not_isFailure (h : FailedLast p events .none) : ∀ event ∈ events, ¬ event.IsFailure := by
  cases h with
  | none hevents _ => exact hevents

theorem append (h : FailedLast p events o) (hearlier : ∀ event ∈ earlier, ¬ event.IsFailure) :
    FailedLast p (events ++ earlier) o := by
  cases h with
  | none hevents ho => exact .none (List.forall_mem_append.2 ⟨hevents, hearlier⟩) ho
  | last hevents => exact .last (List.forall_mem_append.2 ⟨hevents, hearlier⟩)

/-- A trace that is added to the error makes no difference. -/
theorem withTrace {e : EvalError} (h : FailedLast p events (some (.error e))) (trace : List String) :
    FailedLast p events (some (.error (e.withTrace trace))) := by
  cases h with
  | none hevents ho =>
    refine .none hevents fun e' he' => ?_
    cases he'
    rw [EvalError.withTrace_fault]
    exact ho e rfl
  | @last n args message earlier trace' hevents =>
    obtain ⟨trace'', htrace⟩ : ∃ trace'', EvalError.withTrace
        ⟨.native (p.native n).name message, trace'⟩ trace = ⟨.native (p.native n).name message, trace''⟩ :=
      ⟨_, congrArg (EvalError.mk · _) (EvalError.withTrace_fault _ _)⟩
    rw [htrace]
    exact .last hevents

/-- A call is the last event of its step, whether it fails or not. -/
theorem called (p : Program R H) (n : NativeId) (args : List (Value R))
    (outcome : NativeOutcome R) :
    FailedLast p [.called n args outcome] (ending (outcome.result (p.native n).name)) := by
  cases outcome with
  | failed message => exact .last nofun
  | value v => exact .none (List.forall_mem_singleton.2 id) nofun
  | aborted => exact .none (List.forall_mem_singleton.2 id) nofun

end FailedLast

/-- The law: what a step added to the history of the run has its failed call at the end. -/
def FailsLast (p : Program R H) (s : RunState R H) (o : Option Stop) (t : RunState R H) : Prop :=
  ∃ events, t.history = events ++ s.history ∧ FailedLast p events o

namespace FailsLast

variable {p : Program R H} {s t u : RunState R H} {o : Option Stop}

/-- A step that did nothing, and that did not fail for a native. -/
theorem idle (ho : ∀ e, o = some (.error e) → e.fault.nativeMessage? = none) : FailsLast p s o s :=
  ⟨[], rfl, .none nofun ho⟩

theorem trans (h₁ : FailsLast p s none t) (h₂ : FailsLast p t o u) : FailsLast p s o u := by
  obtain ⟨earlier, hearlier, hfailed⟩ := h₁
  obtain ⟨events, hevents, hlast⟩ := h₂
  refine ⟨events ++ earlier, ?_, hlast.append hfailed.not_isFailure⟩
  rw [hevents, hearlier, List.append_assoc]

end FailsLast

theorem failsLast_laws (p : Program R H) : Laws p (FailsLast p) (FailsLast p) where
  refl _ := .idle nofun
  fault s f hf := .idle fun e he => by cases he; exact hf
  starved _ := .idle nofun
  trans := .trans
  called s n args := ⟨[_], rfl, .called p n args _⟩
  returned h := h
  escaped := fun ⟨events, hevents, hlast⟩ =>
    ⟨events, hevents, (FailedLast.none hlast.not_isFailure fun e he => by cases he; rfl).withTrace _⟩
  failed := fun ⟨events, hevents, hlast⟩ => ⟨events, hevents, hlast.withTrace _⟩
  halted _ h := h
  ofExpr h := h
  transStmt := .trans
  assigned s x v := ⟨[.assigned x v], rfl, .none (List.forall_mem_singleton.2 id) nofun⟩
  nested h := h

/-! ### The record of the calls -/

/-- The calls among these events, the latest event first, lead from one host to another, and each of
their outcomes is what the native answered. -/
inductive Answers (p : Program R H) (host : H) : List (Event R) → H → Prop
  | nil : Answers p host [] host
  | called {n : NativeId} {args : List (Value R)} {outcome : NativeOutcome R}
      {earlier : List (Event R)} {before after : H} : Answers p host earlier before →
      (p.native n).op args before = (outcome, after) →
      Answers p host (.called n args outcome :: earlier) after
  | assigned {x : Name} {v : Value R} {earlier : List (Event R)} {now : H} :
      Answers p host earlier now → Answers p host (.assigned x v :: earlier) now

namespace Answers

variable {p : Program R H} {host before after : H} {earlier later : List (Event R)}

theorem append (h₁ : Answers p host earlier before) (h₂ : Answers p before later after) :
    Answers p host (later ++ earlier) after := by
  induction h₂ with
  | nil => exact h₁
  | called _ hop ih => exact .called ih hop
  | assigned _ ih => exact .assigned ih

/-- What the record says of one call. -/
theorem of_called {n : NativeId} {args : List (Value R)} {outcome : NativeOutcome R}
    (h : Answers p host (later ++ .called n args outcome :: earlier) after) :
    ∃ before now, Answers p host earlier before ∧ (p.native n).op args before = (outcome, now) ∧
      Answers p now later after := by
  induction later generalizing after with
  | nil =>
    cases h with
    | called hearlier hop => exact ⟨_, _, hearlier, hop, .nil⟩
  | cons event later ih =>
    cases h with
    | called hrest hop' =>
      obtain ⟨before, now, hearlier, hop, hlater⟩ := ih hrest
      exact ⟨before, now, hearlier, hop, .called hlater hop'⟩
    | assigned hrest =>
      obtain ⟨before, now, hearlier, hop, hlater⟩ := ih hrest
      exact ⟨before, now, hearlier, hop, .assigned hlater⟩

/-- The host after the calls can be had from the calls alone. -/
theorem eq_replay (h : Answers p host earlier after) : after = p.replay earlier host := by
  induction h with
  | nil => rfl
  | called _ hop ih => rw [Program.replay, ← ih, hop]
  | assigned _ ih => exact ih

end Answers

/-- The law: what a step added to the history of the run is what the natives answered. -/
def Recorded (p : Program R H) (s : RunState R H) (_ : Option Stop) (t : RunState R H) : Prop :=
  ∃ events, t.history = events ++ s.history ∧ Answers p s.host events t.host

theorem Recorded.trans {p : Program R H} {s t u : RunState R H} {o o' : Option Stop}
    (h₁ : Recorded p s o t) (h₂ : Recorded p t o' u) : Recorded p s o' u := by
  obtain ⟨earlier, hearlier, hanswers⟩ := h₁
  obtain ⟨events, hevents, hanswers'⟩ := h₂
  exact ⟨events ++ earlier, by rw [hevents, hearlier, List.append_assoc],
    hanswers.append hanswers'⟩

theorem recorded_laws (p : Program R H) : Laws p (Recorded p) (Recorded p) where
  refl _ := ⟨[], rfl, .nil⟩
  fault _ _ _ := ⟨[], rfl, .nil⟩
  starved _ := ⟨[], rfl, .nil⟩
  trans := .trans
  called _ _ _ := ⟨[_], rfl, .called .nil rfl⟩
  returned h := h
  escaped h := h
  failed h := h
  halted _ h := h
  ofExpr h := h
  transStmt := .trans
  assigned _ _ _ := ⟨[_], rfl, .assigned .nil⟩
  nested h := h

/-- **A run records what its natives answered**: each outcome is that of the native with the
arguments on record, applied to the host that the calls before it had left. -/
theorem run_answers [Scalar R] (p : Program R H) (mode : LoopScope) (fuel : Nat) (root : BlockId)
    (s : RunState R H) :
    ∃ events, (Interpreter.run p mode fuel root s).2.history = events ++ s.history ∧
      Answers p s.host events (Interpreter.run p mode fuel root s).2.host :=
  (recorded_laws p).run mode fuel root s

/-! ### Failures -/

/-- **A native that fails is the last thing that a run does**, and the run fails for it. Whatever
the program, the host and the state at the start: if one of the calls that the run made failed,
then nothing was called or assigned after it, and the run ends with an error that has the name of
the native and its message. A run that ends with such an error ends with such a call. -/
theorem native_failure_is_final [Scalar R] (p : Program R H) (mode : LoopScope) (fuel : Nat)
    (root : BlockId) (s : RunState R H) :
    ∃ events, (Interpreter.run p mode fuel root s).2.history = events ++ s.history ∧
      (∀ later n args message earlier,
        events = later ++ .called n args (.failed message) :: earlier →
          later = [] ∧ ∃ trace, (Interpreter.run p mode fuel root s).1 =
            .error (.error ⟨.native (p.native n).name message, trace⟩)) ∧
      ∀ name message trace, (Interpreter.run p mode fuel root s).1 =
          .error (.error ⟨.native name message, trace⟩) →
        ∃ n args earlier, events = .called n args (.failed message) :: earlier ∧
          (p.native n).name = name := by
  obtain ⟨events, hevents, hlast⟩ := (failsLast_laws p).run mode fuel root s
  refine ⟨events, hevents, ?_⟩
  rcases hrun : Interpreter.run p mode fuel root s with ⟨result, t⟩
  rw [hrun] at hlast
  generalize ho : ending result = o at hlast
  cases hlast with
  | none hnone hfault =>
    refine ⟨fun later n args message earlier h => ?_, fun name message trace h => ?_⟩
    · exact absurd trivial (hnone (.called n args (.failed message)) (by simp [h]))
    · cases h
      cases hfault _ ho.symm
  | @last n args message earlier trace hearlier =>
    obtain rfl := ending_eq_some.1 ho
    refine ⟨fun later n' args' message' earlier' h => ?_, fun name message' trace' h => ?_⟩
    · rcases List.cons_eq_append_iff.1 h with ⟨rfl, hcons⟩ | ⟨later', -, hrest⟩
      · cases hcons
        exact ⟨rfl, trace, rfl⟩
      · exact absurd trivial (hearlier (.called n' args' (.failed message')) (by simp [hrest]))
    · cases h
      exact ⟨n, args, earlier, rfl, rfl⟩

/-- It takes numbers out of its host until there are none left, in the body of a function. -/
def drains : BlockId × Program Float (List Int64) :=
  let build : Build Float (List Int64) BlockId := do
    let take ← Build.native ⟨"take", .fixed 0, fun
      | _, [] => (.failed "empty", [])
      | _, n :: ns => (.value (.int n), ns)⟩
    let x ← Build.var "x"
    let body ← Build.block
    Build.push body (.assign x.name (← Build.call take []))
    let drain ← Build.func "drain" []
    Build.pushBody drain (.whileLoop (← Build.literal (.bool true)) body)
    let root ← Build.block
    Build.push root (← Build.sealFunc drain)
    Build.push root (.expr (← Build.apply drain []))
    return root
  build.run Program.empty

/-- It fails in the second iteration for the one number that there was. -/
theorem native_failure_is_final_drains :
    (Interpreter.run drains.2 .shared 9 drains.1 (.fresh [7])).1 =
        .error (.error ⟨.native "take" "empty", ["drain"]⟩) ∧
      (Interpreter.run drains.2 .shared 9 drains.1 (.fresh [7])).2.history =
        [.called ⟨0⟩ [] (.failed "empty"), .assigned ⟨1⟩ (.int 7),
          .called ⟨0⟩ [] (.value (.int 7))] ∧
      ∃ n args earlier, (Interpreter.run drains.2 .shared 9 drains.1 (.fresh [7])).2.history =
        .called n args (.failed "empty") :: earlier ∧ (drains.2.native n).name = "take" := by
  have hresult : (Interpreter.run drains.2 .shared 9 drains.1 (.fresh [7])).1 =
      .error (.error ⟨.native "take" "empty", ["drain"]⟩) := by decide +kernel
  obtain ⟨events, hevents, -, hlast⟩ :=
    native_failure_is_final drains.2 .shared 9 drains.1 (.fresh [7])
  rw [RunState.fresh_history, List.append_nil] at hevents
  refine ⟨hresult, by decide +kernel, ?_⟩
  rw [hevents]
  exact hlast _ _ _ hresult

end StagedGraph
