import StagedGraph.Proofs.LoopTests

/-!
# A frame binds a name once

A frame is a global scope or the scope of a call, with the blocks that are open inside it. An
assignment overwrites the binding that one of them has, or adds a binding to the innermost one only
if none of them has any; and parameters are bound in the scope of a call, which has nothing inside it
yet. So a name is bound by one scope of a frame at most (`Level.BindsOnce`), and no scope hides what
its own frame binds.

`KeepsOnce` is the law of this: it holds of what single steps do, and so of all that an interpreter
does (`once_laws`), however it ends. Whoever uses an interpreter may run blocks, execute statements and
evaluate expressions in any order and open scopes of any kind around them (`Request`); by induction on
the requests every state that is left has the property. So have the states in between, in which the
parts of a run start (`Starts.bindsOnce`).
-/

namespace StagedGraph

open Relation

variable {R H : Type}

/-! ### Levels -/

namespace Level

variable {l : Level R} {ls ms : List (Level R)} {i j : Nat} {x y : Name} {v : Value R}

/-- Level `j` belongs to the frame of level `i`, and is not further inside than that. -/
def SameFrame (ls : List (Level R)) (i j : Nat) : Prop := i ≤ j ∧ j < i + frameSize (ls.drop i)

/-- No name is bound by two levels of one frame. -/
def BindsOnce (ls : List (Level R)) : Prop :=
  ∀ i j x, SameFrame ls i j → Binds ls i x → Binds ls j x → i = j

theorem binds_cons_zero : Binds (l :: ls) 0 x ↔ l.bindings.contains x = true := by
  simp [Binds]

theorem sameFrame_cons_succ : SameFrame (l :: ls) (i + 1) (j + 1) ↔ SameFrame ls i j := by
  rw [SameFrame, SameFrame, List.drop_succ_cons]
  omega

theorem sameFrame_zero : SameFrame ls 0 j ↔ j < frameSize ls := by
  simp [SameFrame]

/-- Only the kinds of the levels decide which of them belong to one frame. -/
theorem SameFrame.congr (h : ms.map Level.kind = ls.map Level.kind) (hij : SameFrame ms i j) :
    SameFrame ls i j := by
  have hdrop : (ms.drop i).map Level.kind = (ls.drop i).map Level.kind := by
    rw [List.map_drop, List.map_drop, h]
  rw [SameFrame, frameSize_congr hdrop] at hij
  exact hij

/-- One more level binds nothing that the frame it belongs to binds. -/
theorem bindsOnce_cons_iff : BindsOnce (l :: ls) ↔
    BindsOnce ls ∧ ∀ j x, j + 1 < frameSize (l :: ls) → l.bindings.contains x = true →
      ¬ Binds ls j x := by
  constructor
  · intro h
    refine ⟨fun i j x hij hi hj => ?_, fun j x hj hx hb => ?_⟩
    · have heq := h (i + 1) (j + 1) x (sameFrame_cons_succ.2 hij) (binds_cons_succ.2 hi)
        (binds_cons_succ.2 hj)
      omega
    · have heq := h 0 (j + 1) x (sameFrame_zero.2 hj) (binds_cons_zero.2 hx) (binds_cons_succ.2 hb)
      omega
  · rintro ⟨hls, hl⟩ i j x hij hi hj
    cases j with
    | zero => exact Nat.le_zero.1 hij.1
    | succ j =>
      cases i with
      | zero =>
        have hnot := hl j x (sameFrame_zero.1 hij) (binds_cons_zero.1 hi)
        exact absurd (binds_cons_succ.1 hj) hnot
      | succ i =>
        rw [hls i j x (sameFrame_cons_succ.1 hij) (binds_cons_succ.1 hi) (binds_cons_succ.1 hj)]

/-- What cannot be overwritten is not bound in the current frame. -/
theorem not_binds_of_update_eq_none (h : update x v ls = none) (hj : j < frameSize ls) :
    ¬ Binds ls j x := by
  induction ls generalizing j with
  | nil => exact absurd hj (Nat.not_lt_zero j)
  | cons l ls ih =>
    rw [update] at h
    split at h
    · cases h
    · next hx =>
      cases j with
      | zero => exact fun hb => hx (binds_cons_zero.1 hb)
      | succ j =>
        rw [frameSize] at hj
        split at h
        · next hk =>
          rw [if_pos hk] at hj
          omega
        · next hk =>
          rw [if_neg hk] at hj
          rw [binds_cons_succ]
          exact ih (Option.map_eq_none_iff.1 h) (Nat.lt_of_succ_lt_succ hj)

/-- Overwriting a binding leaves bound what was bound, and nothing else. -/
theorem binds_of_update (h : update x v ls = some ms) (hb : Binds ms i y) : Binds ls i y := by
  obtain ⟨k, l, hk, -, hx, rfl⟩ := update_spec h
  obtain ⟨m, hm, hy⟩ := hb
  rw [List.getElem?_set] at hm
  split at hm
  · next hki =>
    subst hki
    split at hm
    · cases hm
      refine ⟨l, hk, ?_⟩
      rcases contains_insert.1 hy with rfl | hy
      · exact hx
      · exact hy
    · cases hm
  · exact ⟨m, hm, hy⟩

namespace BindsOnce

theorem push (h : BindsOnce ls) (kind : ScopeKind) : BindsOnce (⟨NameMap.empty, kind⟩ :: ls) :=
  bindsOnce_cons_iff.2 ⟨h, fun _ _ _ hx => nomatch hx⟩

/-- The root of a frame may bind any names. -/
theorem cons_root (h : BindsOnce ls) (hl : l.kind.isFrameRoot = true) : BindsOnce (l :: ls) := by
  refine bindsOnce_cons_iff.2 ⟨h, fun j x hj _ => ?_⟩
  rw [frameSize, if_pos hl] at hj
  omega

theorem tail (h : BindsOnce ls) : BindsOnce ls.tail := by
  cases ls with
  | nil => exact h
  | cons l ls => exact (bindsOnce_cons_iff.1 h).1

/-- **An assignment binds no name a second time.** -/
theorem assign (h : BindsOnce ls) (x : Name) (v : Value R) : BindsOnce (assign x v ls) := by
  rw [Level.assign]
  cases hup : update x v ls with
  | some ms =>
    intro i j y hij hi hj
    have hkinds : ms.map Level.kind = ls.map Level.kind := by
      cases ls with
      | nil => cases hup
      | cons l ls =>
        have hc := Confined.assign x v (List.cons_ne_nil l ls)
        rw [Level.assign, hup] at hc
        exact hc.kinds
    exact h i j y (hij.congr hkinds) (binds_of_update hup hi) (binds_of_update hup hj)
  | none =>
    cases ls with
    | nil => exact h
    | cons l ls =>
      obtain ⟨hls, hl⟩ := bindsOnce_cons_iff.1 h
      refine bindsOnce_cons_iff.2 ⟨hls, fun j y hj hy => ?_⟩
      have hj : j + 1 < frameSize (l :: ls) := hj
      rcases contains_insert.1 hy with rfl | hy
      · exact fun hb => not_binds_of_update_eq_none hup hj (binds_cons_succ.2 hb)
      · exact hl j y hj hy

end BindsOnce

end Level

open Level

/-! ### Runs -/

/-- The law: no name is bound twice in a frame if none was. -/
def KeepsOnce (s : RunState R H) (_ : Option Stop) (t : RunState R H) : Prop :=
  BindsOnce s.env.levels → BindsOnce t.env.levels

/-- A frame binds each name once when the body of a function starts. -/
theorem bindsOnce_entered {p : Program R H} {f : FuncId} {args : List (Value R)} {s : RunState R H}
    (h : BindsOnce s.env.levels) : BindsOnce (s.entered p f args).env.levels := by
  obtain ⟨m, hm⟩ := levels_entered p f args
  rw [hm]
  exact h.cons_root rfl

theorem bindsOnce_pop {env : Environment R} (h : BindsOnce env.levels) :
    BindsOnce env.pop.levels := by
  rcases env.pop_cases with heq | heq
  · rwa [heq]
  · rw [heq]
    exact h.tail

theorem once_laws (p : Program R H) : Laws p KeepsOnce KeepsOnce where
  refl _ := id
  fault _ _ _ := id
  starved _ := id
  trans h₁ h₂ h := h₂ (h₁ h)
  called _ _ _ := id
  returned hbody h := bindsOnce_pop (hbody (bindsOnce_entered h))
  escaped hbody h := bindsOnce_pop (hbody (bindsOnce_entered h))
  failed hbody h := bindsOnce_pop (hbody (bindsOnce_entered h))
  halted _ hbody h := bindsOnce_pop (hbody (bindsOnce_entered h))
  ofExpr := id
  transStmt h₁ h₂ h := h₂ (h₁ h)
  assigned s x v h := by
    rw [RunState.assigned_env, Environment.levels_assign]
    exact h.assign x v
  nested hbody h := bindsOnce_pop (hbody (h.push .block))

namespace Interpreter

variable [Scalar R]

/-- A part of a run starts in such a state if the run is in one. -/
theorem Starts.bindsOnce {p : Program R H} {mode : LoopScope} {x y : Fragment × RunState R H}
    (h : Starts p mode x y) (hx : BindsOnce x.2.env.levels) : BindsOnce y.2.env.levels := by
  have laws := once_laws p
  have htest {cond : ExprId} {holds : Bool} {s t : RunState R H}
      (h : Settles (fun fuel => test (eval p mode fuel) cond) s (.ok holds) t) :
      BindsOnce s.env.levels → BindsOnce t.env.levels :=
    h.obeys fun fuel => laws.test (laws.eval mode fuel) cond
  cases h with
  | operand | arguments | first | operandOf | here | statements | root => exact hx
  | body hcall _ =>
    obtain ⟨es, -, hargs⟩ := hcall
    exact bindsOnce_entered (hargs.obeys (fun fuel => laws.evalAll (laws.eval mode fuel) es) hx)
  | later he => exact he.obeys (fun fuel => laws.eval mode fuel _) hx
  | thenBlock hcond => exact htest hcond hx
  | loopBody hcond =>
    cases mode with
    | shared => exact htest hcond hx
    | perIteration => exact (htest hcond hx).push .block
  | loopAgain hcond hiter =>
    exact hiter.obeys (fun fuel => laws.iteration mode (laws.exec mode fuel _)) (htest hcond hx)
  | after hst => exact hst.obeys (fun fuel => laws.stmt mode fuel _) hx

/-- So does every part that a chain of parts leads to. -/
theorem bindsOnce_of_starts {p : Program R H} {mode : LoopScope} {x y : Fragment × RunState R H}
    (h : ReflTransGen (Starts p mode) x y) (hx : BindsOnce x.2.env.levels) :
    BindsOnce y.2.env.levels := by
  induction h with
  | refl => exact hx
  | tail _ hstart ih => exact hstart.bindsOnce ih

/-! ### Interpreters in use -/

/-- What may be done with an interpreter. A step inside a scope of its own is done between `enter` and
`leave`, however it ends. -/
inductive Request (H : Type) where
  | run (fuel : Nat) (root : BlockId)
  | block (fuel : Nat) (b : BlockId)
  | stmt (fuel : Nat) (st : Stmt)
  | eval (fuel : Nat) (e : ExprId)
  | enter (kind : ScopeKind)
  | leave
  /-- Somebody else changes the host in between. -/
  | change (host : H)

/-- The state after a request, whatever came of it. -/
def Request.perform (p : Program R H) (mode : LoopScope) : Request H → RunState R H → RunState R H
  | run fuel root, s => (Interpreter.run p mode fuel root s).2
  | block fuel b, s => (exec p mode fuel b s).2
  | stmt fuel st, s => (Interpreter.stmt p mode fuel st s).2
  | eval fuel e, s => (Interpreter.eval p mode fuel e s).2
  | enter kind, s => { s with env := s.env.push kind }
  | leave, s => s.closed
  | change host, s => { s with host := host }

/-- The state after these requests. -/
def after (p : Program R H) (mode : LoopScope) : List (Request H) → RunState R H → RunState R H
  | [], s => s
  | r :: rs, s => after p mode rs (r.perform p mode s)

theorem Request.bindsOnce_perform {p : Program R H} {mode : LoopScope} (r : Request H)
    {s : RunState R H} (h : BindsOnce s.env.levels) : BindsOnce (r.perform p mode s).env.levels := by
  have laws := once_laws p
  cases r with
  | run fuel root => exact laws.run mode fuel root s h
  | block fuel b => exact laws.exec mode fuel b s h
  | stmt fuel st => exact laws.stmt mode fuel st s h
  | eval fuel e => exact laws.eval mode fuel e s h
  | enter kind => exact h.push kind
  | leave => exact bindsOnce_pop h
  | change host => exact h

theorem bindsOnce_after {p : Program R H} {mode : LoopScope} (rs : List (Request H))
    {s : RunState R H} (h : BindsOnce s.env.levels) : BindsOnce (after p mode rs s).env.levels := by
  induction rs generalizing s with
  | nil => exact h
  | cons r rs ih => exact ih (r.bindsOnce_perform h)

/-- **A frame binds a name once.** Whatever a new interpreter is used for, in any order, inside scopes
of any kind, and whatever errors come of it: in the state that is left, and in every state in which a
part of what is executed next starts, no name is bound by two scopes of one frame. So nothing inside a
frame is hidden by another scope of the frame, and an iteration with a scope of its own hides no
variable of the frame around it. -/
theorem frame_binds_once (p : Program R H) (mode : LoopScope) (requests : List (Request H)) (host : H) :
    BindsOnce (after p mode requests (.fresh host)).env.levels ∧
      ∀ x y u, ReflTransGen (Starts p mode) (x, after p mode requests (.fresh host)) (y, u) →
        BindsOnce u.env.levels := by
  have hnew : BindsOnce (RunState.fresh host : RunState R H).env.levels := by
    refine bindsOnce_cons_iff.2 ⟨fun _ _ _ _ hb => ?_, fun _ _ _ hx => nomatch hx⟩
    obtain ⟨l, hl, -⟩ := hb
    cases hl
  have hafter : BindsOnce (after p mode requests (.fresh host)).env.levels := bindsOnce_after requests hnew
  exact ⟨hafter, fun x y u h => bindsOnce_of_starts h hafter⟩

/-- A loop that sets a variable of the frame around it, and one of its own. -/
def setsInLoop : BlockId × Program Float Nat :=
  let build : Build Float Nat BlockId := do
    let x ← Build.var "x"
    let y ← Build.var "y"
    let yes ← Build.literal (.bool true)
    let body ← Build.block
    Build.push body (.assign x.name yes)
    Build.push body (.assign y.name yes)
    Build.push body .breakLoop
    let root ← Build.block
    Build.push root (.assign x.name yes)
    Build.push root (.whileLoop yes body)
    return root
  build.run Program.empty

/-- The part of an iteration that starts after both variables are set. -/
theorem starts_setsInLoop (s : RunState Float Nat) :
    ReflTransGen (Starts setsInLoop.2 .perIteration) (.stmt (.whileLoop ⟨2⟩ ⟨0⟩), s)
      (.stmts [.breakLoop], (s.opened.assigned ⟨1⟩ (.bool true)).assigned ⟨2⟩ (.bool true)) := by
  have hcond : Settles (fun fuel => test (eval setsInLoop.2 .perIteration fuel) ⟨2⟩) s (.ok true) s :=
    .succ (.of_forall fun _ => rfl)
  have hassign (x : Name) (t : RunState Float Nat) : Settles
      (fun fuel => stmt setsInLoop.2 .perIteration fuel (.assign x ⟨2⟩)) t (.ok .normal)
      (t.assigned x (.bool true)) :=
    .succ (.of_forall fun _ => rfl)
  have hbody : setsInLoop.2.block ⟨0⟩ = [.assign ⟨1⟩ ⟨2⟩, .assign ⟨2⟩ ⟨2⟩, .breakLoop] := rfl
  refine .head (.loopBody hcond) (.head .statements ?_)
  rw [hbody]
  exact .head (.after (hassign _ _)) (.head (.after (hassign _ _)) .refl)

/-- The program is run, and a scope is opened in which reading the variable of the loop fails. -/
def readsAfterRun : List (Request Nat) := [.run 9 setsInLoop.1, .enter .block, .eval 1 ⟨1⟩]

/-- When the loop is executed in that scope, its break starts with three scopes open in one frame, two
of which bind a name. -/
theorem frame_binds_once_setsInLoop :
    ∃ u, ReflTransGen (Starts setsInLoop.2 .perIteration)
        (.stmt (.whileLoop ⟨2⟩ ⟨0⟩), after setsInLoop.2 .perIteration readsAfterRun (.fresh 0))
        (.stmts [.breakLoop], u) ∧
      u.env.levels = [⟨NameMap.empty.insert ⟨2⟩ (.bool true), .block⟩, ⟨NameMap.empty, .block⟩,
        ⟨NameMap.empty.insert ⟨1⟩ (.bool true), .global⟩] ∧
      BindsOnce u.env.levels := by
  have hstarts := starts_setsInLoop (after setsInLoop.2 .perIteration readsAfterRun (.fresh 0))
  exact ⟨_, hstarts, rfl, (frame_binds_once _ _ readsAfterRun 0).2 _ _ _ hstarts⟩

end Interpreter

end StagedGraph
