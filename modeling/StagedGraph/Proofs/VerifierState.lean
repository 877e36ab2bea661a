import StagedGraph.Verifier

/-!
# A verifier that keeps its context

A step of the verifier is given the context of what it looks at, and an error ends it. Here is the same
walk by a verifier that keeps all of this itself: how many loops and functions it is inside of, the blocks
on the path, and the error that it met. It changes them on the way and changes them back, and after an
error it goes on without doing anything.

What a walk is trusted with it gives back. At its end the depths and the path are what they were, also
if there was an error inside of them (`Follows.inLoop`, `Follows.inBody`, `Follows.onPath`), and a walk
that starts after an error changes nothing at all (`Idle`). So each walk gives back a state that differs
by the functions that were entered and by the error only, and these are those of the step
(`walkBlock_follows`, by induction on the fuel). From a new verifier the walk has the error that
verification reports, and no depth and no path is left (`verify_eq_walk`).
-/

namespace StagedGraph

namespace Verifier

variable {R H α : Type}

/-- What a verifier changes while it walks. -/
structure State where
  loopDepth : Nat
  callableDepth : Nat
  /-- The blocks being walked, the innermost first. -/
  path : List BlockId
  /-- The functions entered so far, the latest first. -/
  entered : List FuncId
  /-- The first error. -/
  error : Option Stop

/-- A verifier before its walk. -/
def State.start : State := ⟨0, 0, [], [], none⟩

/-! ### Walks -/

/-- A walk of a verifier. -/
abbrev Walk := StateM State Unit

/-- Meets an error, which is kept if it is the first. -/
def fail (stop : Stop) : Walk := modify fun v => { v with error := v.error.or (some stop) }

/-- Meets a fault. -/
def failWith (f : Fault) : Walk := fail (.error (.ofFault f))

/-- Walks on if no error was met. -/
def unlessFailed (x : Walk) : Walk := do
  if (← get).error.isNone then x

/-- Walks inside of a loop. -/
def inLoop (x : Walk) : Walk := do
  modify fun v => { v with loopDepth := v.loopDepth + 1 }
  x
  modify fun v => { v with loopDepth := v.loopDepth - 1 }

/-- Walks inside of a function's body, where the loops around it do not count. -/
def inBody (x : Walk) : Walk := do
  let loops := (← get).loopDepth
  modify fun v => { v with loopDepth := 0, callableDepth := v.callableDepth + 1 }
  x
  modify fun v => { v with loopDepth := loops, callableDepth := v.callableDepth - 1 }

/-- Walks inside of a block. -/
def onPath (b : BlockId) (x : Walk) : Walk := do
  modify fun v => { v with path := b :: v.path }
  x
  modify fun v => { v with path := v.path.erase b }

/-- Walks through the body of a function that was not entered before. -/
def walkFunc (p : Program R H) (block : BlockId → Walk) (f : FuncId) : Walk := unlessFailed do
  if f ∈ (← get).entered then pure ()
  else
    modify fun v => { v with entered := f :: v.entered }
    inBody (block (p.func f).body)

/-- Walks into what is called, if it has a body. -/
def walkCallee (func : FuncId → Walk) : Callee → Walk
  | .native _ => pure ()
  | .callable f => func f

/-- Meets the fault, if a check found one. -/
def require : Except Fault Unit → Walk
  | .ok () => pure ()
  | .error f => failWith f

/-- Walks through an expression, given how functions are walked into. -/
def walkExpr (p : Program R H) (func : FuncId → Walk) : Nat → ExprId → Walk
  | 0, _ => fail .outOfFuel
  | fuel + 1, e => unlessFailed <| match p.expr e with
    | .literal _ => pure ()
    | .var _ => pure ()
    | .neg operand => walkExpr p func fuel operand
    | .invoke callee args => do
      require (checkInvoke p callee args.length)
      walkCallee func callee
      args.forM (walkExpr p func fuel)

/-- Walks through a statement, given how its parts are walked through. -/
def walkStmt (expr : ExprId → Walk) (block : BlockId → Walk) (func : FuncId → Walk) (s : Stmt) : Walk :=
  unlessFailed <| match s with
    | .expr e => expr e
    | .assign _ e => expr e
    | .ifThen cond thenBlock => do
      expr cond
      block thenBlock
    | .whileLoop cond body => do
      expr cond
      inLoop (block body)
    | .breakLoop => do
      if (← get).loopDepth = 0 then failWith .breakOutsideLoop
    | .returnValue e => do
      if (← get).callableDepth = 0 then failWith .returnOutsideCallable
      else e.forM expr
    | .funcDef f => func f

/-- Walks through a block, which is on the path until the walk ends. -/
def walkBlock (p : Program R H) : Nat → BlockId → Walk
  | 0, _ => fail .outOfFuel
  | fuel + 1, b => unlessFailed do
    if b ∈ (← get).path then failWith .cyclicBlock
    else
      let func := walkFunc p (walkBlock p fuel)
      let expr := walkExpr p func (p.exprs.size + 1)
      onPath b ((p.block b).forM (walkStmt expr (walkBlock p fuel) func))

/-- The verifier after a walk. -/
def Walk.after (x : Walk) (v : State) : State := (x.run v).2

/-! ### What a walk gives back -/

/-- Once there is an error, the walk changes nothing. -/
def Idle (x : Walk) : Prop := ∀ v : State, v.error ≠ none → x.after v = v

/-- The verifier walks in this context. -/
structure State.Within (v : State) (ctx : Context) : Prop where
  path : v.path = ctx.path
  inLoop : ctx.inLoop = decide (0 < v.loopDepth)
  inCallable : ctx.inCallable = decide (0 < v.callableDepth)
  error : v.error = none

/-- The verifier after a walk that ends as the step does: it is as it was, but for the functions that
were entered and the error. -/
def Leaves (v : State) (v' : State) : Except Stop (List FuncId) → Prop
  | .ok ent => v' = { v with entered := ent }
  | .error stop => ∃ ent, v' = { v with entered := ent, error := some stop }

/-- In this context, the walk ends as the step does. -/
structure Follows (x : Walk) (ctx : Context) (y : Step) : Prop where
  idle : Idle x
  leaves : ∀ v : State, v.Within ctx → Leaves v (x.after v) (y v.entered)

variable {p : Program R H} {ctx : Context} {x x' : Walk} {y y' : Step} {fuel : Nat}

/-- A walk that depends on the state. -/
theorem after_ite (c : State → Prop) [∀ v, Decidable (c v)] (x x' : Walk) (v : State) :
    Walk.after (do if c (← get) then x else x') v = if c v then x.after v else x'.after v := by
  change (if c v then x else x').after v = _
  split <;> rfl

theorem idle_fail (stop : Stop) : Idle (fail stop) := fun v herror => by
  obtain ⟨e, he⟩ := Option.ne_none_iff_exists'.1 herror
  change { v with error := v.error.or (some stop) } = v
  rw [he, Option.some_or, ← he]

theorem idle_unlessFailed (x : Walk) : Idle (unlessFailed x) := fun v herror => by
  obtain ⟨e, he⟩ := Option.ne_none_iff_exists'.1 herror
  change ((if v.error.isNone then x else pure ()) : Walk).after v = v
  rw [he]
  rfl

/-- Which functions were entered before a walk is not compared. -/
theorem leaves_entered {v v' : State} {ent : List FuncId} {r : Except Stop (List FuncId)} :
    Leaves { v with entered := ent } v' r ↔ Leaves v v' r := by
  cases r <;> rfl

theorem Follows.done : Follows (pure ()) ctx .ok where
  idle _ _ := rfl
  leaves _ _ := rfl

theorem follows_fail (stop : Stop) : Follows (fail stop) ctx (fun _ => .error stop) where
  idle := idle_fail stop
  leaves v hv := by
    refine ⟨v.entered, ?_⟩
    change { v with error := v.error.or (some stop) } = _
    rw [hv.error]
    rfl

theorem follows_failWith (f : Fault) : Follows (failWith f) ctx (fault f) := follows_fail _

theorem Follows.unlessFailed (hx : ∀ v : State, v.Within ctx → Leaves v (x.after v) (y v.entered)) :
    Follows (unlessFailed x) ctx y where
  idle := idle_unlessFailed x
  leaves v hv := by
    have hafter : (Verifier.unlessFailed x).after v = x.after v := by
      change ((if v.error.isNone then x else pure ()) : Walk).after v = _
      rw [hv.error]
      rfl
    rw [hafter]
    exact hx v hv

theorem Follows.bind (hx : Follows x ctx y) (hx' : Follows x' ctx y') :
    Follows (x >>= fun _ => x') ctx (both y y') where
  idle v herror := by
    change x'.after (x.after v) = v
    rw [hx.idle v herror, hx'.idle v herror]
  leaves v hv := by
    change Leaves v (x'.after (x.after v)) (both y y' v.entered)
    have hfirst := hx.leaves v hv
    rw [both]
    cases hy : y v.entered with
    | error stop =>
      rw [hy] at hfirst
      obtain ⟨ent, hent⟩ := hfirst
      exact ⟨ent, by rw [hent, hx'.idle _ (Option.some_ne_none stop)]⟩
    | ok ent =>
      rw [hy] at hfirst
      have hent : x.after v = { v with entered := ent } := hfirst
      have hthen := hx'.leaves { v with entered := ent } ⟨hv.path, hv.inLoop, hv.inCallable, hv.error⟩
      rw [hent]
      exact leaves_entered.1 hthen

theorem Follows.forM {f : α → Walk} {g : α → Step} {as : List α} (h : ∀ a, Follows (f a) ctx (g a)) :
    Follows (as.forM f) ctx (each g as) := by
  induction as with
  | nil => exact .done
  | cons a as ih => exact (h a).bind ih

/-- A walk between a change of the verifier and the change back follows what the walk itself follows. -/
theorem Follows.between {ctx' : Context} (hx : Follows x ctx' y) (enter : State → State)
    (leave : State → State → State) (hafter : ∀ v, x'.after v = leave v (x.after (enter v)))
    (hkeeps : ∀ v, (enter v).entered = v.entered ∧ (enter v).error = v.error)
    (hback : ∀ v ent error, leave v { enter v with entered := ent, error := error } =
      { v with entered := ent, error := error })
    (hwithin : ∀ v : State, v.Within ctx → (enter v).Within ctx') : Follows x' ctx y where
  idle v herror := by
    have hsame : enter v = { enter v with entered := v.entered, error := v.error } := by
      rw [← (hkeeps v).1, ← (hkeeps v).2]
    rw [hafter, hx.idle _ ((hkeeps v).2 ▸ herror), hsame, hback]
  leaves v hv := by
    have hinner := hx.leaves (enter v) (hwithin v hv)
    rw [(hkeeps v).1] at hinner
    rw [hafter]
    cases hy : y v.entered with
    | ok ent =>
      rw [hy] at hinner
      have hent : x.after (enter v) = { enter v with entered := ent } := hinner
      have hsame : { enter v with entered := ent } =
          { enter v with entered := ent, error := v.error } := by rw [← (hkeeps v).2]
      rw [hent, hsame, hback]
      rfl
    | error stop =>
      rw [hy] at hinner
      obtain ⟨ent, hent⟩ := hinner
      exact ⟨ent, by rw [hent, hback]⟩

/-- The depth of the loops is given back. -/
theorem Follows.inLoop (hx : Follows x { ctx with inLoop := true } y) : Follows (inLoop x) ctx y :=
  hx.between (fun v => { v with loopDepth := v.loopDepth + 1 })
    (fun _ v => { v with loopDepth := v.loopDepth - 1 }) (fun _ => rfl) (fun _ => ⟨rfl, rfl⟩)
    (fun _ _ _ => rfl)
    fun _ hv => ⟨hv.path, (decide_eq_true (Nat.succ_pos _)).symm, hv.inCallable, hv.error⟩

/-- Both depths are given back. -/
theorem Follows.inBody (hx : Follows x ctx.body y) : Follows (inBody x) ctx y :=
  hx.between (fun v => { v with loopDepth := 0, callableDepth := v.callableDepth + 1 })
    (fun v v' => { v' with loopDepth := v.loopDepth, callableDepth := v'.callableDepth - 1 })
    (fun _ => rfl) (fun _ => ⟨rfl, rfl⟩) (fun _ _ _ => rfl)
    fun _ hv => ⟨hv.path, rfl, (decide_eq_true (Nat.succ_pos _)).symm, hv.error⟩

/-- The path is given back. -/
theorem Follows.onPath {b : BlockId} (hx : Follows x (ctx.enter b) y) : Follows (onPath b x) ctx y :=
  hx.between (fun v => { v with path := b :: v.path })
    (fun _ v => { v with path := v.path.erase b }) (fun _ => rfl) (fun _ => ⟨rfl, rfl⟩)
    (fun v _ _ => by dsimp only; rw [List.erase_cons_head])
    fun _ hv => ⟨congrArg (b :: ·) hv.path, hv.inLoop, hv.inCallable, hv.error⟩

/-! ### The walk -/

section

variable {func : FuncId → Walk} {func' : FuncId → Step} {expr : ExprId → Walk} {expr' : ExprId → Step}
  {block : BlockId → Walk} {block' : Context → BlockId → Step}

theorem walkFunc_follows {f : FuncId} (h : Follows (block (p.func f).body) ctx.body y) :
    Follows (walkFunc p block f) ctx (fun ent => if f ∈ ent then .ok ent else y (f :: ent)) := by
  refine .unlessFailed fun v hv => ?_
  rw [after_ite (fun v => f ∈ v.entered)]
  by_cases hf : f ∈ v.entered
  · rw [if_pos hf, if_pos hf]
    rfl
  · rw [if_neg hf, if_neg hf]
    exact leaves_entered.1 (h.inBody.leaves { v with entered := f :: v.entered }
      ⟨hv.path, hv.inLoop, hv.inCallable, hv.error⟩)

/-- The step into what is called. -/
def enterCallee (func : FuncId → Step) : Callee → Step
  | .native _ => .ok
  | .callable f => func f

theorem require_follows (ctx : Context) (check : Except Fault Unit) :
    Follows (require check) ctx
      (match check with
      | .ok () => .ok
      | .error f => fault f) := by
  cases check with
  | ok u => exact .done
  | error f => exact follows_failWith f

theorem walkExpr_follows (hfunc : ∀ f, Follows (func f) ctx (func' f)) (fuel : Nat) (e : ExprId) :
    Follows (walkExpr p func fuel e) ctx (visitExpr p func' fuel e) := by
  induction fuel generalizing e with
  | zero => exact follows_fail _
  | succ fuel ih =>
    rw [walkExpr]
    refine .unlessFailed fun v hv => ?_
    rw [visitExpr]
    cases p.expr e with
    | literal => exact Follows.done.leaves v hv
    | var => exact Follows.done.leaves v hv
    | neg operand => exact (ih operand).leaves v hv
    | invoke callee args =>
      have hargs : Follows (args.forM (walkExpr p func fuel)) ctx (each (visitExpr p func' fuel) args) :=
        .forM ih
      have hcall : Follows (walkCallee func callee) ctx (enterCallee func' callee) := by
        cases callee with
        | native n => exact .done
        | callable f => exact hfunc f
      have hrequire := require_follows ctx (checkInvoke p callee args.length)
      have hwhole := (hrequire.bind (hcall.bind hargs)).leaves v hv
      cases hcheck : checkInvoke p callee args.length with
      | error f =>
        rw [hcheck] at hwhole
        dsimp only
        rw [hcheck]
        exact hwhole
      | ok u =>
        rw [hcheck] at hwhole
        dsimp only
        rw [hcheck]
        cases callee with
        | native n => exact hwhole
        | callable f => exact hwhole

/-- What needs a loop or a function around it. -/
theorem leaves_allowed {v : State} (hv : v.Within ctx) (depth : State → Nat) {flag : Bool}
    (hflag : flag = decide (0 < depth v)) (f : Fault) (hx : Leaves v (x.after v) (y v.entered)) :
    Leaves v (Walk.after (do if depth (← get) = 0 then failWith f else x) v)
      ((if flag then y else fault f) v.entered) := by
  rw [after_ite (fun v => depth v = 0)]
  by_cases hdepth : depth v = 0
  · rw [if_pos hdepth, hflag, if_neg (by simp [hdepth])]
    exact (follows_failWith f).leaves v hv
  · rw [if_neg hdepth, hflag, if_pos (by simp [Nat.pos_of_ne_zero hdepth])]
    exact hx

theorem walkStmt_follows (hexpr : ∀ e, Follows (expr e) ctx (expr' e))
    (hblock : ∀ ctx b, Follows (block b) ctx (block' ctx b)) (hfunc : ∀ f, Follows (func f) ctx (func' f))
    (s : Stmt) : Follows (walkStmt expr block func s) ctx (visitStmt expr' block' func' ctx s) := by
  refine .unlessFailed fun v hv => ?_
  cases s with
  | expr e => exact (hexpr e).leaves v hv
  | assign x e => exact (hexpr e).leaves v hv
  | ifThen cond b => exact ((hexpr cond).bind (hblock ctx b)).leaves v hv
  | whileLoop cond b => exact ((hexpr cond).bind (hblock _ b).inLoop).leaves v hv
  | breakLoop => exact leaves_allowed hv State.loopDepth hv.inLoop _ (Follows.done.leaves v hv)
  | returnValue e =>
    cases e with
    | none => exact leaves_allowed hv State.callableDepth hv.inCallable _ (Follows.done.leaves v hv)
    | some e => exact leaves_allowed hv State.callableDepth hv.inCallable _ ((hexpr e).leaves v hv)
  | funcDef f => exact (hfunc f).leaves v hv

end

/-- **A verifier that keeps its context walks as one that is given it**, and gives back what it was trusted
with. -/
theorem walkBlock_follows (p : Program R H) (fuel : Nat) (ctx : Context) (b : BlockId) :
    Follows (walkBlock p fuel b) ctx (visitBlock p fuel ctx b) := by
  induction fuel generalizing ctx b with
  | zero => exact follows_fail _
  | succ fuel ih =>
    rw [walkBlock]
    refine .unlessFailed fun v hv => ?_
    rw [after_ite (fun v => b ∈ v.path), visitBlock, hv.path]
    by_cases hb : b ∈ ctx.path
    · rw [if_pos hb, if_pos hb]
      exact (follows_failWith .cyclicBlock).leaves v hv
    · rw [if_neg hb, if_neg hb]
      have hfunc (f : FuncId) := walkFunc_follows (f := f) (ih (ctx.enter b).body (p.func f).body)
      have hexpr := walkExpr_follows (p := p) hfunc (p.exprs.size + 1)
      exact (Follows.forM fun s => walkStmt_follows hexpr ih hfunc s).onPath.leaves v hv

/-- **Verification is the walk of a new verifier.** Its result is the error that the walk meets; the
depths and the path of the verifier are at the end as they were at the start, in any case. -/
theorem verify_eq_walk (p : Program R H) (root : BlockId) :
    let v := (walkBlock p (p.blocks.size + 1) root).after .start
    (p.verify root = match v.error with
      | none => .ok ()
      | some stop => .error stop) ∧
      v.loopDepth = 0 ∧ v.callableDepth = 0 ∧ v.path = [] ∧
      ∀ ent, Verifier.entered p root = .ok ent → v.entered = ent := by
  have hwalk := (walkBlock_follows p (p.blocks.size + 1) .root root).leaves .start ⟨rfl, rfl, rfl, rfl⟩
  rw [Program.verify, Verifier.entered]
  change Leaves _ _ (visitBlock p (p.blocks.size + 1) .root root []) at hwalk
  cases hvisit : visitBlock p (p.blocks.size + 1) .root root [] with
  | ok ent =>
    rw [hvisit] at hwalk
    have hwalk : (walkBlock p (p.blocks.size + 1) root).after .start = _ := hwalk
    rw [hwalk]
    exact ⟨rfl, rfl, rfl, rfl, fun _ h => Except.ok.inj h⟩
  | error stop =>
    rw [hvisit] at hwalk
    obtain ⟨ent, hent⟩ := hwalk
    rw [hent]
    exact ⟨rfl, rfl, rfl, rfl, nofun⟩

end Verifier

end StagedGraph
