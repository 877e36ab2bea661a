import Mathlib.Data.List.TakeDrop
import StagedGraph.Proofs.Building
import StagedGraph.Proofs.RunLaws
import StagedGraph.Proofs.Trees

/-!
# The order of calls

A block is a straight line if its statements are expressions and assignments and it invokes natives
only. What such a block does can be read off its text: the nodes of its trees, operands first and
from left to right, are a list of actions on a stack of values (`Code.actions`), and executing the
block is performing these actions one after another (`exec_becomes`). The invocations among the
actions are the listing of the block's invocations (`Code.invocations`); an expression that is
shared is listed once for each place where it stands.

One action makes the call that it is, or none (`Action.perform_calls`). By induction along the
list, the calls of a run are those of the actions up to the first that fails (`performAll_calls`).
-/

namespace StagedGraph

open Interpreter

variable {R H α β : Type}

/-! ### Steps without fuel -/

instance : LawfulMonad (Run R H) := by
  refine .mk' _ (fun x => funext fun s => ?_) (fun _ _ => rfl) fun x f g => funext fun s => ?_
  · change (x >>= pure) s = x s
    rw [Run.bind_apply]
    rcases x s with ⟨_ | a, t⟩ <;> rfl
  · simp only [Run.bind_apply]
    rcases x s with ⟨_ | a, t⟩ <;> rfl

/-- Two steps do the same after a step if they do the same after each of its results. -/
theorem Run.bind_congr {x : Run R H α} {f g : α → Run R H β}
    (h : ∀ s a t, x s = (.ok a, t) → f a = g a) : x >>= f = x >>= g := by
  funext s
  rw [bind_apply, bind_apply]
  rcases hx : x s with ⟨why | a, t⟩
  · rfl
  · exact congrFun (h s a t hx) t

/-- With enough fuel the one step is the other. -/
def Becomes (x : Nat → Run R H α) (y : Run R H α) : Prop :=
  ∃ enough, ∀ fuel, enough ≤ fuel → x fuel = y

namespace Becomes

variable {x : Nat → Run R H α} {y : Run R H α}

theorem of_forall (h : ∀ fuel, x fuel = y) : Becomes x y := ⟨0, fun fuel _ => h fuel⟩

theorem succ (h : Becomes (fun fuel => x (fuel + 1)) y) : Becomes x y := by
  obtain ⟨enough, h⟩ := h
  refine ⟨enough + 1, fun fuel hfuel => ?_⟩
  obtain ⟨k, rfl⟩ : ∃ k, fuel = k + 1 := ⟨fuel - 1, by omega⟩
  exact h k (by omega)

/-- What follows a step may have its own need of fuel, the same after every result. -/
theorem bind {z : Nat → Run R H β} {w : Run R H β} {γ : Type} (f : α → Run R H β → Run R H γ)
    (hx : Becomes x y) (hz : Becomes z w) :
    Becomes (fun fuel => x fuel >>= fun a => f a (z fuel)) (y >>= fun a => f a w) := by
  obtain ⟨m, hx⟩ := hx
  obtain ⟨n, hz⟩ := hz
  refine ⟨max m n, fun fuel hfuel => ?_⟩
  dsimp only
  rw [hx fuel (by omega), hz fuel (by omega)]

theorem map (hx : Becomes x y) (f : α → Run R H β) :
    Becomes (fun fuel => x fuel >>= f) (y >>= f) :=
  bind (fun a _ => f a) hx (of_forall fun _ => rfl : Becomes (fun _ => y) y)

end Becomes

/-! ### Actions -/

/-- What one node of an expression does, or a statement when its expression has a value. The
operands are on a stack, the last on top. -/
inductive Action (R : Type) where
  | push (v : Value R)
  | load (x : Name)
  | negate
  | call (n : NativeId) (argc : Nat)
  | drop
  | store (x : Name)

/-- An invocation of a native: which native, and how many arguments it gets. -/
abbrev Invocation := NativeId × Nat

namespace Action

/-- The invocation that the action is. -/
def invocation? : Action R → Option Invocation
  | call n argc => some (n, argc)
  | _ => none

variable [Scalar R]

/-- Performs an action. Where the stack is too short, values are `void`. -/
def perform (p : Program R H) : Action R → List (Value R) → Run R H (List (Value R))
  | push v, stack => pure (v :: stack)
  | load x, stack => do
    let v ← Run.lookup p x
    pure (v :: stack)
  | negate, stack => do
    let v ← Run.ofExcept (stack.headD .void).negated
    pure (v :: stack.tail)
  | call n argc, stack => do
    let v ← callNative p n (stack.takeD argc .void).reverse
    pure (v :: stack.drop argc)
  | drop, stack => pure stack.tail
  | store x, stack => do
    Run.assign x (stack.headD .void)
    pure stack.tail

end Action

section

variable [Scalar R] {p : Program R H}

/-- Performs actions one after another. -/
def performAll (p : Program R H) : List (Action R) → List (Value R) → Run R H (List (Value R))
  | [], stack => pure stack
  | a :: rest, stack => do
    let stack ← a.perform p stack
    performAll p rest stack

theorem performAll_append (xs ys : List (Action R)) (stack : List (Value R)) :
    performAll p (xs ++ ys) stack = performAll p xs stack >>= performAll p ys := by
  induction xs generalizing stack with
  | nil => rfl
  | cons a xs ih => simp only [List.cons_append, performAll, ih, bind_assoc]

end

/-! ### The text of a straight line -/

mutual

/-- What an expression does, its operands first and from left to right. A straight line has no
calls of functions, and they are left out. -/
def Term.actions : Term R → List (Action R)
  | .literal v => [.push v]
  | .var x => [.load x]
  | .neg t => t.actions ++ [.negate]
  | .invoke (.native n) ts => Term.allActions ts ++ [.call n ts.length]
  | .invoke (.callable _) ts => Term.allActions ts

/-- What several expressions do, from left to right. -/
def Term.allActions : List (Term R) → List (Action R)
  | [] => []
  | t :: ts => t.actions ++ Term.allActions ts

end

mutual

/-- The invocations of natives in an expression, each after those in its arguments. -/
def Term.invocations : Term R → List Invocation
  | .literal _ => []
  | .var _ => []
  | .neg t => t.invocations
  | .invoke (.native n) ts => Term.allInvocations ts ++ [(n, ts.length)]
  | .invoke (.callable _) ts => Term.allInvocations ts

/-- The invocations in several expressions, from left to right. -/
def Term.allInvocations : List (Term R) → List Invocation
  | [] => []
  | t :: ts => t.invocations ++ Term.allInvocations ts

end

namespace Code

/-- What a statement of a straight line does. -/
def action : Code R → List (Action R)
  | .expr t => t.actions ++ [.drop]
  | .assign x t => t.actions ++ [.store x]
  | _ => []

/-- What the statements of a straight line do, one after another. -/
def actions (cs : List (Code R)) : List (Action R) := cs.flatMap action

/-- The invocations of natives in a statement of a straight line. -/
def invocation : Code R → List Invocation
  | .expr t => t.invocations
  | .assign _ t => t.invocations
  | _ => []

/-- The invocations of natives in the statements of a straight line, statement by statement. -/
def invocations (cs : List (Code R)) : List Invocation := cs.flatMap invocation

end Code

mutual

theorem Term.filterMap_actions : (t : Term R) →
    t.actions.filterMap Action.invocation? = t.invocations
  | .literal _ => rfl
  | .var _ => rfl
  | .neg t => by
    rw [actions, List.filterMap_append, t.filterMap_actions]
    exact List.append_nil _
  | .invoke (.native n) ts => by
    rw [actions, List.filterMap_append, filterMap_allActions ts]
    rfl
  | .invoke (.callable _) ts => filterMap_allActions ts

theorem Term.filterMap_allActions : (ts : List (Term R)) →
    (Term.allActions ts).filterMap Action.invocation? = Term.allInvocations ts
  | [] => rfl
  | t :: ts => by
    rw [allActions, List.filterMap_append, t.filterMap_actions, filterMap_allActions ts]
    rfl

end

/-- The invocations among the actions of a straight line are the invocations in its text. -/
theorem Code.filterMap_actions (cs : List (Code R)) :
    (Code.actions cs).filterMap Action.invocation? = Code.invocations cs := by
  rw [actions, invocations, List.filterMap_flatMap]
  refine congrArg (cs.flatMap ·) (funext fun c => ?_)
  cases c with
  | expr t =>
    rw [action, List.filterMap_append, t.filterMap_actions]
    exact List.append_nil _
  | assign x t =>
    rw [action, List.filterMap_append, t.filterMap_actions]
    exact List.append_nil _
  | ifThen | whileLoop | breakLoop | returnVoid | returnValue | funcDef => rfl

/-! ### Blocks in a straight line -/

/-- The statement is an expression or an assignment. -/
def Stmt.isStraight : Stmt → Bool
  | .expr _ => true
  | .assign _ _ => true
  | _ => false

/-- The statements of the block are expressions and assignments, and they invoke natives only. -/
structure Program.StraightLine (p : Program R H) (b : BlockId) : Prop where
  straight : ∀ st ∈ p.block b, st.isStraight = true
  natives : ∀ f, ¬ p.Calls b f

section

variable {p : Program R H}

theorem exists_forall₂ {γ δ : Type} {Q : δ → γ → Prop} {as : List γ} (h : ∀ a ∈ as, ∃ b, Q b a) :
    ∃ bs, List.Forall₂ Q bs as := by
  induction as with
  | nil => exact ⟨[], .nil⟩
  | cons a as ih =>
    obtain ⟨⟨b, hb⟩, h⟩ := List.forall_mem_cons.1 h
    obtain ⟨bs, hbs⟩ := ih h
    exact ⟨b :: bs, .cons hb hbs⟩

/-- Every expression of a program that was built has a tree. -/
theorem Program.Built.exists_term (hp : p.Built) (e : ExprId) : ∃ t : Term R, t.At p e := by
  induction hn : e.index using Nat.strongRecOn generalizing e with
  | ind n ih =>
    subst hn
    have hoperand (a : ExprId) (ha : a ∈ (p.expr e).operands) : ∃ t : Term R, t.At p a :=
      ih a.index (hp.operand_lt ha) a rfl
    cases he : p.expr e with
    | literal v => exact ⟨_, .literal he⟩
    | var x => exact ⟨_, .var he⟩
    | neg a =>
      rw [he] at hoperand
      obtain ⟨t, ht⟩ := hoperand a (List.mem_singleton_self a)
      exact ⟨_, .neg he ht⟩
    | invoke callee es =>
      rw [he] at hoperand
      obtain ⟨ts, hts⟩ := exists_forall₂ hoperand
      exact ⟨_, .invoke he hts⟩

/-- The statements of a straight line have trees. -/
theorem Program.StraightLine.exists_code (hp : p.Built) {b : BlockId} (hb : p.StraightLine b) :
    ∃ cs : List (Code R), Code.AtBlock p cs b := by
  refine exists_forall₂ fun st hst => ?_
  cases st with
  | expr e =>
    obtain ⟨t, ht⟩ := hp.exists_term e
    exact ⟨_, .expr ht⟩
  | assign x e =>
    obtain ⟨t, ht⟩ := hp.exists_term e
    exact ⟨_, .assign ht⟩
  | ifThen | whileLoop | breakLoop | returnValue | funcDef => cases hb.straight _ hst

end

/-! ### Executing is performing -/

theorem evalAll_length {eval : ExprId → Run R H (Value R)} {es : List ExprId}
    {vs : List (Value R)} {s t : RunState R H} (h : evalAll eval es s = (.ok vs, t)) :
    vs.length = es.length := by
  induction es generalizing vs s with
  | nil => cases h; rfl
  | cons e es ih =>
    rw [evalAll, Run.bind_apply] at h
    rcases he : eval e s with ⟨_ | v, u⟩ <;> rw [he] at h
    · cases h
    · dsimp only at h
      rw [Run.bind_apply] at h
      rcases hes : evalAll eval es u with ⟨_ | ws, u'⟩ <;> rw [hes] at h
      · cases h
      · cases h
        exact congrArg (· + 1) (ih hes)

section

variable [Scalar R] {p : Program R H} {mode : LoopScope}

theorem Becomes.eval {e : ExprId} {k : Expr R} {y : Run R H (Value R)} (he : p.expr e = k)
    (h : Becomes (fun fuel => evalExpr p (eval p mode fuel) (exec p mode fuel) k) y) :
    Becomes (fun fuel => Interpreter.eval p mode fuel e) y := by
  subst he
  exact .succ h

/-- A call takes its arguments from the stack in the order in which they were evaluated. -/
theorem perform_call (n : NativeId) (args stack : List (Value R)) :
    (Action.call n args.length).perform p (args.reverse ++ stack) = (do
      let v ← callNative p n args
      pure (v :: stack)) := by
  have htake : (args.reverse ++ stack).takeD args.length .void = args.reverse :=
    List.takeD_left' args.length_reverse
  have hdrop : (args.reverse ++ stack).drop args.length = stack :=
    List.drop_left' args.length_reverse
  rw [Action.perform, htake, hdrop, List.reverse_reverse]

mutual

/-- **Evaluating an expression is performing its actions**, which leaves the value on the stack. -/
theorem Term.exists_becomes : (t : Term R) → ∀ {e}, t.At p e → (∀ f, ¬ p.Invokes e f) →
    ∃ y, Becomes (fun fuel => eval p mode fuel e) y ∧
      ∀ stack, performAll p t.actions stack = y >>= fun v => pure (v :: stack)
  | .literal v, _, ht, _ => by
    cases ht with
    | literal h => exact ⟨pure v, .eval h (.of_forall fun _ => rfl), fun _ => rfl⟩
  | .var x, _, ht, _ => by
    cases ht with
    | var h =>
      refine ⟨Run.lookup p x, .eval h (.of_forall fun _ => rfl), fun stack => ?_⟩
      simp only [actions, performAll, Action.perform, bind_pure]
  | .neg t, e, ht, hf => by
    cases ht with
    | @neg _ a _ h ht =>
      have hoperand : p.Operand e a := by
        rw [Program.Operand, h]
        exact List.mem_singleton_self a
      obtain ⟨y, hy, hperform⟩ := t.exists_becomes ht fun f hi => hf f (hi.operand hoperand)
      refine ⟨_, .eval h (hy.map _), fun stack => ?_⟩
      simp only [actions, performAll_append, hperform, performAll, Action.perform, bind_assoc,
        pure_bind, List.headD_cons, List.tail_cons]
  | .invoke callee ts, e, ht, hf => by
    cases ht with
    | @invoke _ _ es _ h hts =>
      cases callee with
      | callable f => exact absurd ⟨e, es, .refl, h⟩ (hf f)
      | native n =>
        have hoperand {a : ExprId} (ha : a ∈ es) : p.Operand e a := by
          rw [Program.Operand, h]
          exact ha
        obtain ⟨y, hy, hperform⟩ :=
          exists_becomes_all ts hts fun a ha f hi => hf f (hi.operand (hoperand ha))
        refine ⟨y >>= callNative p n, .eval h (hy.map (callNative p n)), fun stack => ?_⟩
        obtain ⟨fuel, hfuel⟩ := hy
        rw [actions, performAll_append, hperform, bind_assoc, bind_assoc]
        -- the call takes as many values as it has arguments, and so many are there
        refine Run.bind_congr fun s vs u hvs => ?_
        rw [← hfuel fuel (Nat.le_refl fuel)] at hvs
        have hlength : ts.length = vs.length := hts.length_eq.trans (evalAll_length hvs).symm
        rw [pure_bind, performAll, hlength, perform_call, bind_assoc]
        exact bind_congr fun v => pure_bind _ _

theorem Term.exists_becomes_all : (ts : List (Term R)) → ∀ {es}, List.Forall₂ (Term.At p) ts es →
    (∀ a ∈ es, ∀ f, ¬ p.Invokes a f) →
      ∃ y, Becomes (fun fuel => evalAll (eval p mode fuel) es) y ∧ ∀ stack,
        performAll p (Term.allActions ts) stack = y >>= fun vs => pure (vs.reverse ++ stack)
  | [], _, hts, _ => by
    cases hts
    exact ⟨pure [], .of_forall fun _ => rfl, fun _ => rfl⟩
  | t :: ts, _, hts, hf => by
    cases hts with
    | cons ht hts =>
      obtain ⟨hfirst, hrest⟩ := List.forall_mem_cons.1 hf
      obtain ⟨y, hy, hperform⟩ := t.exists_becomes ht hfirst
      obtain ⟨ys, hys, hperforms⟩ := exists_becomes_all ts hts hrest
      refine ⟨_, hy.bind (fun v x => x >>= fun vs => pure (v :: vs)) hys, fun stack => ?_⟩
      simp only [allActions, performAll_append, hperform, hperforms, bind_assoc, pure_bind,
        List.reverse_cons, List.append_assoc, List.singleton_append]

end

/-- Executing a statement of a straight line is performing its actions, which use up the stack. -/
theorem Code.exists_becomes {c : Code R} {st : Stmt} (hc : c.At p st) (hst : st.isStraight = true)
    (hf : ∀ e ∈ st.exprs, ∀ f, ¬ p.Invokes e f) :
    ∃ y : Run R H Unit, Becomes (fun fuel => stmt p mode fuel st) (y >>= fun _ => pure .normal) ∧
      performAll p c.action [] = y >>= fun _ => pure [] := by
  cases hc with
  | @expr t e ht =>
    obtain ⟨y, hy, hperform⟩ := t.exists_becomes ht (hf e (List.mem_singleton_self e))
    refine ⟨y >>= fun _ => pure (), ?_, ?_⟩
    · rw [bind_assoc]
      exact hy.map fun _ => pure Flow.normal
    · simp only [action, performAll_append, hperform, performAll, Action.perform, bind_assoc,
        pure_bind, List.tail_cons]
  | @assign x t e ht =>
    obtain ⟨y, hy, hperform⟩ := t.exists_becomes ht (hf e (List.mem_singleton_self e))
    refine ⟨y >>= fun v => Run.assign x v, ?_, ?_⟩
    · rw [bind_assoc]
      exact hy.map fun v => Run.assign x v >>= fun _ => pure Flow.normal
    · simp only [action, performAll_append, hperform, performAll, Action.perform, bind_assoc,
        pure_bind, List.headD_cons, List.tail_cons]
  | ifThen | whileLoop | breakLoop | returnVoid | returnValue | funcDef => cases hst

/-- What follows a statement that ends normally is executed after it. -/
theorem Becomes.execAll_cons {st : Stmt} {sts : List Stmt} {y : Run R H Unit}
    {z : Run R H (Flow R)}
    (hy : Becomes (fun fuel => stmt p mode fuel st) (y >>= fun _ => pure .normal))
    (hz : Becomes (fun fuel => execAll (stmt p mode fuel) sts) z) :
    Becomes (fun fuel => execAll (stmt p mode fuel) (st :: sts)) (y >>= fun _ => z) := by
  obtain ⟨m, hy⟩ := hy
  obtain ⟨n, hz⟩ := hz
  refine ⟨max m n, fun fuel hfuel => ?_⟩
  simp only [execAll, hy fuel (by omega), hz fuel (by omega), bind_assoc, pure_bind]

theorem execAll_becomes {cs : List (Code R)} {sts : List Stmt}
    (hcs : List.Forall₂ (Code.At p) cs sts) (hstraight : ∀ st ∈ sts, st.isStraight = true)
    (hf : ∀ st ∈ sts, ∀ e ∈ st.exprs, ∀ f, ¬ p.Invokes e f) :
    Becomes (fun fuel => execAll (stmt p mode fuel) sts)
      (performAll p (Code.actions cs) [] >>= fun _ => pure .normal) := by
  induction hcs with
  | nil => exact .of_forall fun _ => rfl
  | @cons c st cs sts hc _ ih =>
    obtain ⟨hst, hstraight⟩ := List.forall_mem_cons.1 hstraight
    obtain ⟨hfst, hf⟩ := List.forall_mem_cons.1 hf
    obtain ⟨y, hy, hperform⟩ := c.exists_becomes hc hst hfst
    have hactions : performAll p (Code.actions (c :: cs)) [] =
        y >>= fun _ => performAll p (Code.actions cs) [] := by
      rw [Code.actions, List.flatMap_cons, performAll_append, hperform, bind_assoc]
      rfl
    rw [hactions, bind_assoc]
    exact hy.execAll_cons (ih hstraight hf)

/-- **Executing a straight line is performing the actions that its text lists.** -/
theorem exec_becomes {b : BlockId} (hb : p.StraightLine b) {cs : List (Code R)}
    (hcs : Code.AtBlock p cs b) :
    Becomes (fun fuel => exec p mode fuel b)
      (performAll p (Code.actions cs) [] >>= fun _ => pure .normal) :=
  .succ (execAll_becomes hcs hb.straight fun st hst e he f h => hb.natives f ⟨st, hst, e, he, h⟩)

end

/-! ### Calls of actions -/

/-- The invocation that an event of a run carries out. -/
def Event.invocation? : Event R → Option Invocation
  | .called n args _ => some (n, args.length)
  | .assigned _ _ => none

/-- The calls among the events of a run, the earliest first. -/
def callsOf (events : List (Event R)) : List Invocation :=
  events.reverse.filterMap Event.invocation?

theorem callsOf_append (later earlier : List (Event R)) :
    callsOf (later ++ earlier) = callsOf earlier ++ callsOf later := by
  rw [callsOf, List.reverse_append, List.filterMap_append]
  rfl

/-- The run stopped because a native failed. -/
def Stop.isNative : Stop → Bool
  | .error e => e.fault.nativeMessage?.isSome
  | .aborted => true
  | .outOfFuel => false

section

variable [Scalar R] {p : Program R H}

/-- What the calls of an action are for how it ends: its own if it succeeds; if it fails, its own
again where the failure is that of a native, and otherwise none. -/
def Action.Calls (a : Action R) : Except Stop (List (Value R)) → List Invocation → Prop
  | .ok _, calls => calls = a.invocation?.toList
  | .error why, calls => (why.isNative = false ∧ calls = []) ∨
      (why.isNative = true ∧ ∃ i, a.invocation? = some i ∧ calls = [i])

/-- An action adds events, and its calls are among them. -/
theorem Action.perform_calls (a : Action R) (stack : List (Value R)) (s : RunState R H) :
    ∃ events, (a.perform p stack s).2.history = events ++ s.history ∧
      a.Calls (a.perform p stack s).1 (callsOf events) := by
  have hfault {f : Fault} (h : f.nativeMessage? = none) :
      (Stop.error (.ofFault f)).isNative = false := congrArg Option.isSome h
  cases a with
  | push v => exact ⟨[], rfl, rfl⟩
  | load x =>
    refine ⟨[], ?_⟩
    rw [perform, Run.bind_apply, Run.lookup]
    cases s.env.lookup x with
    | none => exact ⟨rfl, .inl ⟨rfl, rfl⟩⟩
    | some v => exact ⟨rfl, rfl⟩
  | negate =>
    refine ⟨[], ?_⟩
    rw [perform]
    cases hv : (stack.headD .void).negated with
    | error f => exact ⟨rfl, .inl ⟨hfault (WithoutNative.negated _ f hv), rfl⟩⟩
    | ok v => exact ⟨rfl, rfl⟩
  | call n argc =>
    set args := (stack.takeD argc .void).reverse with hargs
    have hlength : args.length = argc := by rw [hargs, List.length_reverse, List.takeD_length]
    rw [perform, ← hargs, Run.bind_apply]
    cases harity : checkArity (p.native n).name (p.native n).arity args.length with
    | error f =>
      rw [callNative, harity]
      exact ⟨[], rfl, .inl ⟨hfault (WithoutNative.checkArity _ _ _ f harity), rfl⟩⟩
    | ok _ =>
      rw [callNative_apply harity, RunState.called]
      rcases (p.native n).op args s.host with ⟨outcome, host⟩
      refine ⟨[.called n args outcome], ?_⟩
      have hcalls : callsOf [.called n args outcome] = [(n, argc)] := by rw [← hlength]; rfl
      cases outcome with
      | value v => exact ⟨rfl, hcalls⟩
      | failed message => exact ⟨rfl, .inr ⟨rfl, _, rfl, hcalls⟩⟩
      | aborted => exact ⟨rfl, .inr ⟨rfl, _, rfl, hcalls⟩⟩
  | drop => exact ⟨[], rfl, rfl⟩
  | store x => exact ⟨[.assigned x _], rfl, rfl⟩

/-- The actions before it succeed, and then the action fails. -/
def FailsAfter (p : Program R H) (before : List (Action R)) (a : Action R) (stack : List (Value R))
    (s : RunState R H) (why : Stop) (t : RunState R H) : Prop :=
  ∃ stack' u, performAll p before stack s = (.ok stack', u) ∧ a.perform p stack' u = (.error why, t)

theorem FailsAfter.cons {a b : Action R} {before : List (Action R)} {stack stack' : List (Value R)}
    {s u t : RunState R H} {why : Stop} (hb : b.perform p stack s = (.ok stack', u))
    (h : FailsAfter p before a stack' u why t) : FailsAfter p (b :: before) a stack s why t := by
  obtain ⟨final, v, hbefore, ha⟩ := h
  exact ⟨final, v, (Run.bind_apply_ok hb).trans hbefore, ha⟩

/-- **The calls of actions are those of all of them, or of those up to the first that fails.** -/
theorem performAll_calls (actions : List (Action R)) (stack : List (Value R)) (s : RunState R H) :
    ∃ r t events, performAll p actions stack s = (r, t) ∧ t.history = events ++ s.history ∧
      ((∃ final, r = .ok final ∧ callsOf events = actions.filterMap Action.invocation?) ∨
        ∃ before a after why last, actions = before ++ a :: after ∧
          FailsAfter p before a stack s why t ∧ r = .error why ∧ a.Calls (.error why) last ∧
          callsOf events = before.filterMap Action.invocation? ++ last) := by
  induction actions generalizing stack s with
  | nil => exact ⟨_, _, [], rfl, rfl, .inl ⟨_, rfl, rfl⟩⟩
  | cons a rest ih =>
    obtain ⟨events, hevents, hcalls⟩ := a.perform_calls (p := p) stack s
    rw [performAll, Run.bind_apply]
    rcases ha : a.perform p stack s with ⟨why | stack', u⟩ <;> rw [ha] at hevents hcalls
    · exact ⟨_, _, events, rfl, hevents,
        .inr ⟨[], a, rest, why, _, rfl, ⟨stack, s, rfl, ha⟩, rfl, hcalls, rfl⟩⟩
    · obtain ⟨r, t, more, hrest, hmore, hcases⟩ := ih stack' u
      have hcons (actions : List (Action R)) : (a :: actions).filterMap Action.invocation? =
          callsOf events ++ actions.filterMap Action.invocation? := by
        rw [show callsOf events = a.invocation?.toList from hcalls, List.filterMap_cons]
        cases a.invocation? <;> rfl
      refine ⟨r, t, more ++ events, hrest, by rw [hmore, hevents, List.append_assoc], ?_⟩
      rw [callsOf_append]
      rcases hcases with ⟨final, hr, hall⟩ | ⟨before, b, after, why, last, rfl, hfails, hr, hb, hall⟩
      · exact .inl ⟨final, hr, by rw [hcons, hall]⟩
      · exact .inr ⟨a :: before, b, after, why, last, rfl, hfails.cons ha, hr, hb,
          by rw [hcons, hall, List.append_assoc]⟩

/-- **A straight line calls its natives in the order of its text.** The statements of a block are
expressions and assignments, and they invoke natives only. With enough fuel, from every state and
whatever the natives do: the calls that an execution makes are the first of the invocations that the
trees of the statements list, statement by statement, each after those in its arguments, a shared
one once for each place where it stands. They are all of them if the execution ends normally.
Otherwise they are those before the first action that fails, and the failing one too if it is the
call of a native that fails. -/
theorem exec_calls_in_order {p : Program R H} (hp : p.Built) {b : BlockId} (hb : p.StraightLine b)
    (mode : LoopScope) :
    (∃ cs, Code.AtBlock p cs b) ∧ ∀ cs, Code.AtBlock p cs b →
      ∃ enough, ∀ fuel, enough ≤ fuel → ∀ s, ∃ r t events,
        exec p mode fuel b s = (r, t) ∧ t.history = events ++ s.history ∧
        callsOf events <+: Code.invocations cs ∧
        ((r = .ok .normal ∧ callsOf events = Code.invocations cs) ∨
          ∃ before a after why, Code.actions cs = before ++ a :: after ∧
            FailsAfter p before a [] s why t ∧ r = .error why ∧
            ((why.isNative = false ∧ callsOf events = before.filterMap Action.invocation?) ∨
              (why.isNative = true ∧ ∃ i, a.invocation? = some i ∧
                callsOf events = before.filterMap Action.invocation? ++ [i]))) := by
  refine ⟨hb.exists_code hp, fun cs hcs => ?_⟩
  obtain ⟨enough, hexec⟩ := exec_becomes (p := p) hb hcs
  refine ⟨enough, fun fuel hfuel s => ?_⟩
  obtain ⟨r, t, events, hperform, hevents, hcases⟩ := performAll_calls (p := p) (Code.actions cs) [] s
  have hlisting := Code.filterMap_actions cs
  have hexec : exec p mode fuel b s = _ := congrFun (hexec fuel hfuel) s
  rcases hcases with ⟨final, rfl, hall⟩ |
    ⟨before, a, after, why, last, hactions, hfails, rfl, hlast, hall⟩
  · refine ⟨_, t, events, hexec.trans (Run.bind_apply_ok hperform), hevents, ?_⟩
    rw [hall, hlisting]
    exact ⟨List.prefix_rfl, .inl ⟨rfl, rfl⟩⟩
  · refine ⟨_, t, events, hexec.trans (Run.bind_apply_error hperform), hevents, ?_, ?_⟩
    · rw [hactions, List.filterMap_append] at hlisting
      rw [hall, ← hlisting, List.prefix_append_right_inj, List.filterMap_cons]
      rcases hlast with ⟨-, rfl⟩ | ⟨-, i, hi, rfl⟩
      · exact List.nil_prefix
      · rw [hi]
        exact ⟨_, rfl⟩
    · refine .inr ⟨before, a, after, why, hactions, hfails, rfl, ?_⟩
      rcases hlast with ⟨hwhy, rfl⟩ | ⟨hwhy, i, hi, rfl⟩
      · exact .inl ⟨hwhy, by rw [hall, List.append_nil]⟩
      · exact .inr ⟨hwhy, i, hi, hall⟩

end

/-- A block that takes two tickets for a pair, and another two for the next. There are three
tickets. -/
def takesTickets : Program Float Nat :=
  let build : Build Float Nat Unit := do
    let ticket ← Build.native ⟨"ticket", .fixed 0, fun _ left =>
      (if left = 0 then .failed "sold out" else .value (.int 1), left - 1)⟩
    let pair ← Build.native (.pure "pair" (.fixed 2) fun _ => .value .void)
    let taken ← Build.call ticket []
    let both ← Build.call pair [taken, taken]
    let b ← Build.block
    Build.push b (.expr both)
    Build.push b (.expr both)
  (build.run Program.empty).2

theorem takesTickets_built : takesTickets.Built := by
  have h : (.empty : Program Float Nat).Built := .refl
  have h := h.tail (.native ⟨"ticket", .fixed 0, fun _ left =>
    (if left = 0 then .failed "sold out" else .value (.int 1), left - 1)⟩)
  have h := h.tail (.native (.pure "pair" (.fixed 2) fun _ => .value .void))
  have h := h.tail (.invoke (by decide : Program.HasCallee _ (.native ⟨0⟩)) (List.forall_mem_nil _))
  have h := h.tail (.invoke (by decide : Program.HasCallee _ (.native ⟨1⟩))
    (by decide : ∀ a ∈ ([⟨0⟩, ⟨0⟩] : List ExprId), Program.HasExpr _ a))
  have h := h.tail .block
  have h := h.tail (.append (b := ⟨0⟩) (s := .expr ⟨1⟩) (by decide) (by decide) rfl)
  exact h.tail (.append (b := ⟨0⟩) (s := .expr ⟨1⟩) (by decide) (by decide) rfl)

theorem takesTickets_straight : takesTickets.StraightLine ⟨0⟩ := by
  refine ⟨by decide, fun f ⟨_, _, _, _, a, args, _, ha⟩ => ?_⟩
  rcases a with ⟨_ | _ | a⟩ <;> cases ha

/-- The tree of either statement of the block. -/
def pairOfTickets : Term Float :=
  .invoke (.native ⟨1⟩) [.invoke (.native ⟨0⟩) [], .invoke (.native ⟨0⟩) []]

/-- The listing has both pairs. With three tickets the second pair is begun and not completed. -/
theorem exec_calls_in_order_takesTickets :
    takesTickets.Built ∧ takesTickets.StraightLine ⟨0⟩ ∧
      Code.AtBlock takesTickets [.expr pairOfTickets, .expr pairOfTickets] ⟨0⟩ ∧
      Code.invocations [.expr pairOfTickets, .expr pairOfTickets] =
        [(⟨0⟩, 0), (⟨0⟩, 0), (⟨1⟩, 2), (⟨0⟩, 0), (⟨0⟩, 0), (⟨1⟩, 2)] ∧
      callsOf (exec takesTickets .shared 4 ⟨0⟩ (.fresh 3)).2.history =
        [(⟨0⟩, 0), (⟨0⟩, 0), (⟨1⟩, 2), (⟨0⟩, 0), (⟨0⟩, 0)] ∧
      ∃ enough, ∀ fuel, enough ≤ fuel → ∀ s, ∃ r t events,
        exec takesTickets .shared fuel ⟨0⟩ s = (r, t) ∧ t.history = events ++ s.history ∧
          callsOf events <+: Code.invocations [.expr pairOfTickets, .expr pairOfTickets] := by
  have hcs : Code.AtBlock takesTickets [.expr pairOfTickets, .expr pairOfTickets] ⟨0⟩ :=
    Program.blockCode?_at (show takesTickets.blockCode? 4 ⟨0⟩ = some _ from rfl)
  obtain ⟨-, hcalls⟩ := exec_calls_in_order takesTickets_built takesTickets_straight .shared
  obtain ⟨enough, hcalls⟩ := hcalls _ hcs
  refine ⟨takesTickets_built, takesTickets_straight, hcs, rfl, rfl, enough, fun fuel hfuel s => ?_⟩
  obtain ⟨r, t, events, hexec, hevents, hprefix, -⟩ := hcalls fuel hfuel s
  exact ⟨r, t, events, hexec, hevents, hprefix⟩

end StagedGraph
