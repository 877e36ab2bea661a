import StagedGraph.Execution
import StagedGraph.Proofs.RunLaws
import StagedGraph.Proofs.Trees

/-!
# Executions without fuel

A fuelled step settles on a result if it yields that result for every amount of fuel from
some amount on (`Settles`). `Evaluates` and `Executes` are this for the trees of expressions
and statements, with one rule for each way in which a tree is evaluated or executed. By
these rules a run is followed along the text of a program, without its numbers and without
its fuel.
-/

namespace StagedGraph

variable {R H α β : Type}

/-- The step yields this result and leaves this state, whatever the fuel, once there is
enough of it. -/
def Settles (x : Nat → Run R H α) (s : RunState R H) (r : Except Stop α) (t : RunState R H) : Prop :=
  ∃ enough, ∀ fuel, enough ≤ fuel → x fuel s = (r, t)

namespace Settles

variable {x : Nat → Run R H α} {f : Nat → α → Run R H β} {s t u : RunState R H} {a : α}

theorem of_forall {r : Except Stop α} (h : ∀ fuel, x fuel s = (r, t)) : Settles x s r t :=
  ⟨0, fun fuel _ => h fuel⟩

/-- A unit of fuel more or less does not matter. -/
theorem succ {r : Except Stop α} (h : Settles (fun fuel => x (fuel + 1)) s r t) : Settles x s r t := by
  obtain ⟨enough, h⟩ := h
  refine ⟨enough + 1, fun fuel hf => ?_⟩
  obtain ⟨k, rfl⟩ : ∃ k, fuel = k + 1 := ⟨fuel - 1, by omega⟩
  exact h k (by omega)

theorem bind {r : Except Stop β} (hx : Settles x s (.ok a) t)
    (hf : Settles (fun fuel => f fuel a) t r u) : Settles (fun fuel => x fuel >>= f fuel) s r u := by
  obtain ⟨m, hx⟩ := hx
  obtain ⟨n, hf⟩ := hf
  exact ⟨max m n, fun fuel hfuel =>
    (Run.bind_apply_ok (hx fuel (by omega))).trans (hf fuel (by omega))⟩

theorem bind_error {why : Stop} (hx : Settles x s (.error why) t) :
    Settles (fun fuel => x fuel >>= f fuel) s (.error why) t := by
  obtain ⟨n, hx⟩ := hx
  exact ⟨n, fun fuel hfuel => Run.bind_apply_error (hx fuel hfuel)⟩

end Settles

section Rules

variable [Scalar R]

/-- An expression evaluates to a result. -/
def Evaluates (p : Program R H) (mode : LoopScope) (term : Term R) (s : RunState R H)
    (r : Except Stop (Value R)) (t : RunState R H) : Prop :=
  ∀ e, term.At p e → Settles (fun fuel => Interpreter.eval p mode fuel e) s r t

/-- Expressions evaluate to values, from left to right. -/
def EvaluatesAll (p : Program R H) (mode : LoopScope) (terms : List (Term R)) (s : RunState R H)
    (vs : List (Value R)) (t : RunState R H) : Prop :=
  ∀ es, List.Forall₂ (Term.At p) terms es →
    Settles (fun fuel => Interpreter.evalAll (Interpreter.eval p mode fuel) es) s (.ok vs) t

/-- A condition holds, or does not. -/
def Tests (p : Program R H) (mode : LoopScope) (cond : Term R) (s : RunState R H) (holds : Bool)
    (t : RunState R H) : Prop :=
  ∃ v, Evaluates p mode cond s (.ok v) t ∧ v.truth = .ok holds

/-- A statement executes with a result. -/
def Executes (p : Program R H) (mode : LoopScope) (code : Code R) (s : RunState R H)
    (r : Except Stop (Flow R)) (t : RunState R H) : Prop :=
  ∀ st, code.At p st → Settles (fun fuel => Interpreter.stmt p mode fuel st) s r t

/-- The statements of a block execute with a result. -/
def ExecutesAll (p : Program R H) (mode : LoopScope) (codes : List (Code R)) (s : RunState R H)
    (r : Except Stop (Flow R)) (t : RunState R H) : Prop :=
  ∀ sts, List.Forall₂ (Code.At p) codes sts →
    Settles (fun fuel => Interpreter.execAll (Interpreter.stmt p mode fuel) sts) s r t

variable {p : Program R H} {mode : LoopScope} {s t u : RunState R H}

/-! ### Expressions -/

theorem Settles.eval {e : ExprId} {expr : Expr R} {r : Except Stop (Value R)} (he : p.expr e = expr)
    (h : Settles (fun fuel => Interpreter.evalExpr p (Interpreter.eval p mode fuel)
      (Interpreter.exec p mode fuel) expr) s r t) :
    Settles (fun fuel => Interpreter.eval p mode fuel e) s r t := by
  subst he
  exact .succ h

theorem Settles.exec {b : BlockId} {codes : List (Code R)} {r : Except Stop (Flow R)}
    (hb : Code.AtBlock p codes b) (h : ExecutesAll p mode codes s r t) :
    Settles (fun fuel => Interpreter.exec p mode fuel b) s r t :=
  .succ (h _ hb)

namespace EvaluatesAll

theorem nil : EvaluatesAll p mode [] s [] s := by
  intro es hes
  cases hes
  exact .of_forall fun _ => rfl

theorem cons {term : Term R} {terms : List (Term R)} {v : Value R} {vs : List (Value R)}
    (h : Evaluates p mode term s (.ok v) t) (hs : EvaluatesAll p mode terms t vs u) :
    EvaluatesAll p mode (term :: terms) s (v :: vs) u := by
  intro es hes
  cases hes with
  | cons he hes => exact .bind (h _ he) (.bind (hs _ hes) (.of_forall fun _ => rfl))

/-- The first expression that has no value is the last that is evaluated. -/
theorem error {terms rest : List (Term R)} {vs : List (Value R)} {term : Term R} {why : Stop}
    (hs : EvaluatesAll p mode terms s vs t) (h : Evaluates p mode term t (.error why) u)
    {es : List ExprId} (hes : List.Forall₂ (Term.At p) (terms ++ term :: rest) es) :
    Settles (fun fuel => Interpreter.evalAll (Interpreter.eval p mode fuel) es) s (.error why)
      u := by
  obtain ⟨n, hs⟩ := hs _ (List.forall₂_take_append _ _ _ hes.flip).flip
  obtain ⟨e, more, he, -, hdrop⟩ := List.forall₂_cons_left_iff.1
    (List.forall₂_drop_append _ _ _ hes.flip).flip
  obtain ⟨m, h⟩ := h e he
  refine ⟨max n m, fun fuel hfuel => ?_⟩
  rw [← List.take_append_drop terms.length es, hdrop]
  exact Interpreter.evalAll_append_error (hs fuel (by omega)) (h fuel (by omega)) more

end EvaluatesAll

namespace Evaluates

theorem literal (v : Value R) : Evaluates p mode (.literal v) s (.ok v) s := by
  intro e he
  cases he with
  | literal he => exact .eval he (.of_forall fun _ => rfl)

theorem var {x : Name} {v : Value R} (h : s.env.lookup x = some v) :
    Evaluates p mode (.var x) s (.ok v) s := by
  intro e he
  cases he with
  | var he => exact .eval he (.of_forall fun _ => by simp [Interpreter.evalExpr, Run.lookup, h])

theorem neg {term : Term R} {v w : Value R} (h : Evaluates p mode term s (.ok v) t)
    (hv : v.negated = .ok w) : Evaluates p mode (.neg term) s (.ok w) t := by
  intro e he
  cases he with
  | neg he ha => exact .eval he (.bind (h _ ha) (.of_forall fun _ => by rw [hv]; rfl))

variable {terms : List (Term R)} {vs : List (Value R)}

/-- A call of a native ends as the native says, and leaves a record of itself. -/
theorem native {n : NativeId} {outcome : NativeOutcome R} {host : H}
    (hargs : EvaluatesAll p mode terms s vs t)
    (harity : (p.native n).arity.accepts vs.length = true)
    (hop : (p.native n).op vs t.host = (outcome, host)) :
    Evaluates p mode (.invoke (.native n) terms) s (outcome.result (p.native n).name)
      { t with host := host, history := .called n vs outcome :: t.history } := by
  intro e he
  cases he with
  | invoke he hes =>
    have hcalled : t.called p n vs =
        { t with host := host, history := .called n vs outcome :: t.history } := by
      rw [RunState.called, hop]
    have hcall := Interpreter.callNative_apply (Interpreter.checkArity_of_accepts _ harity) t
    rw [hop, hcalled] at hcall
    exact .eval he (.bind (hargs _ hes) (.of_forall fun _ => hcall))

/-- A call whose arguments do not all have a value is not made. -/
theorem invoke_error {callee : Callee} {term : Term R} {rest : List (Term R)} {why : Stop}
    (hargs : EvaluatesAll p mode terms s vs t) (h : Evaluates p mode term t (.error why) u) :
    Evaluates p mode (.invoke callee (terms ++ term :: rest)) s (.error why) u := by
  intro e he
  cases he with
  | invoke he hes => exact .eval he (.bind_error (hargs.error h hes))

/-- A call of a function ends as its body does, seen from outside. -/
theorem call {f : FuncId} {codes : List (Code R)} {r : Except Stop (Flow R)}
    (hargs : EvaluatesAll p mode terms s vs t) (hsealed : (p.func f).isSealed = true)
    (hcount : (p.func f).params.length = vs.length) (hbody : Code.AtBlock p codes (p.func f).body)
    (h : ExecutesAll p mode codes (t.entered p f vs) r u) :
    Evaluates p mode (.invoke (.callable f) terms) s (Interpreter.afterBody p r u).1
      (Interpreter.afterBody p r u).2 := by
  intro e he
  cases he with
  | invoke he hes =>
    refine .eval he (.bind (hargs _ hes) ?_)
    obtain ⟨enough, hexec⟩ := Settles.exec hbody h
    refine ⟨enough, fun fuel hfuel => ?_⟩
    have hrun : Interpreter.exec p mode fuel (p.func f).body (t.entered p f vs) = (r, u) :=
      hexec fuel hfuel
    exact (Interpreter.callFunc_apply hsealed hcount _ t).trans (by rw [hrun])

end Evaluates

theorem Tests.of_bool {cond : Term R} {holds : Bool}
    (h : Evaluates p mode cond s (.ok (.bool holds)) t) : Tests p mode cond s holds t :=
  ⟨_, h, rfl⟩

theorem Tests.settles {cond : Term R} {holds : Bool} {e : ExprId} (h : Tests p mode cond s holds t)
    (he : cond.At p e) :
    Settles (fun fuel => Interpreter.test (Interpreter.eval p mode fuel) e) s (.ok holds) t := by
  obtain ⟨v, h, hv⟩ := h
  exact .bind (h e he) (.of_forall fun _ => by rw [hv]; rfl)

/-! ### Statements -/

namespace Executes

variable {term cond : Term R} {codes : List (Code R)} {v : Value R} {why : Stop}

theorem expr (h : Evaluates p mode term s (.ok v) t) :
    Executes p mode (.expr term) s (.ok .normal) t := by
  intro st hst
  cases hst with
  | expr he => exact .bind (h _ he) (.of_forall fun _ => rfl)

theorem assign {x : Name} (h : Evaluates p mode term s (.ok v) t) :
    Executes p mode (.assign x term) s (.ok .normal) (t.assigned x v) := by
  intro st hst
  cases hst with
  | assign he => exact .bind (h _ he) (.of_forall fun _ => rfl)

theorem assign_error {x : Name} (h : Evaluates p mode term s (.error why) t) :
    Executes p mode (.assign x term) s (.error why) t := by
  intro st hst
  cases hst with
  | assign he => exact .bind_error (h _ he)

theorem expr_error (h : Evaluates p mode term s (.error why) t) :
    Executes p mode (.expr term) s (.error why) t := by
  intro st hst
  cases hst with
  | expr he => exact .bind_error (h _ he)

theorem breakLoop : Executes p mode .breakLoop s (.ok .breakLoop) s := by
  intro st hst
  cases hst
  exact .of_forall fun _ => rfl

theorem returnValue (h : Evaluates p mode term s (.ok v) t) :
    Executes p mode (.returnValue term) s (.ok (.returned v)) t := by
  intro st hst
  cases hst with
  | returnValue he => exact .bind (h _ he) (.of_forall fun _ => rfl)

theorem funcDef {f : FuncId} {params : List Name} :
    Executes p mode (.funcDef f params codes) s (.ok .normal) s := by
  intro st hst
  cases hst
  exact .of_forall fun _ => rfl

theorem ifThen {r : Except Stop (Flow R)} (hc : Tests p mode cond s true t)
    (h : ExecutesAll p mode codes t r u) : Executes p mode (.ifThen cond codes) s r u := by
  intro st hst
  cases hst with
  | ifThen he hb => exact .bind (hc.settles he) (.exec hb h)

theorem ifThen_skip (hc : Tests p mode cond s false t) :
    Executes p mode (.ifThen cond codes) s (.ok .normal) t := by
  intro st hst
  cases hst with
  | ifThen he hb => exact .bind (hc.settles he) (.of_forall fun _ => rfl)

end Executes

namespace ExecutesAll

variable {code : Code R} {codes : List (Code R)} {r : Except Stop (Flow R)}

theorem nil : ExecutesAll p mode [] s (.ok .normal) s := by
  intro sts hsts
  cases hsts
  exact .of_forall fun _ => rfl

theorem cons (h : Executes p mode code s (.ok .normal) t) (hs : ExecutesAll p mode codes t r u) :
    ExecutesAll p mode (code :: codes) s r u := by
  intro sts hsts
  cases hsts with
  | cons hst hsts => exact .bind (h _ hst) (hs _ hsts)

theorem append {more : List (Code R)} (h : ExecutesAll p mode codes s (.ok .normal) t)
    (hs : ExecutesAll p mode more t r u) : ExecutesAll p mode (codes ++ more) s r u := by
  intro sts hsts
  obtain ⟨n, h⟩ := h _ (List.forall₂_take_append _ _ _ hsts.flip).flip
  obtain ⟨m, hs⟩ := hs _ (List.forall₂_drop_append _ _ _ hsts.flip).flip
  refine ⟨max n m, fun fuel hfuel => ?_⟩
  rw [← List.take_append_drop codes.length sts]
  exact (Interpreter.execAll_append (h fuel (by omega)) _).trans (hs fuel (by omega))

/-- A statement that does not end normally is the last one that is executed. -/
theorem last (h : Executes p mode code s r t) (hr : r ≠ .ok .normal) :
    ExecutesAll p mode (code :: codes) s r t := by
  intro sts hsts
  cases hsts with
  | cons hst hsts =>
    match r with
    | .error why => exact .bind_error (h _ hst)
    | .ok .normal => exact absurd rfl hr
    | .ok .breakLoop => exact .bind (h _ hst) (.of_forall fun _ => rfl)
    | .ok (.returned v) => exact .bind (h _ hst) (.of_forall fun _ => rfl)

theorem single (h : Executes p mode code s r t) : ExecutesAll p mode [code] s r t := by
  by_cases hr : r = .ok .normal
  · subst hr
    exact .cons h .nil
  · exact .last h hr

end ExecutesAll

/-! ### Loops -/

/-- The body of a loop executes with a result, in the scope that the policy gives to it. -/
def Iterates (p : Program R H) : LoopScope → List (Code R) → RunState R H →
    Except Stop (Flow R) → RunState R H → Prop
  | .shared, body, s, r, t => ExecutesAll p .shared body s r t
  | .perIteration, body, s, r, t =>
    ∃ u, ExecutesAll p .perIteration body s.opened r u ∧ t = u.closed

theorem Iterates.settles {body : List (Code R)} {b : BlockId} {r : Except Stop (Flow R)}
    (h : Iterates p mode body s r t) (hb : Code.AtBlock p body b) :
    Settles (fun fuel => Interpreter.iteration mode (Interpreter.exec p mode fuel b)) s r t := by
  cases mode with
  | shared => exact .exec hb h
  | perIteration =>
    obtain ⟨u, h, rfl⟩ := h
    obtain ⟨enough, hexec⟩ := Settles.exec hb h
    refine ⟨enough, fun fuel hfuel => ?_⟩
    have hrun : Interpreter.exec p .perIteration fuel b s.opened = (r, u) := hexec fuel hfuel
    exact (Run.inScope_block_apply _ s).trans (by rw [hrun])

namespace Executes

variable {cond : Term R} {body : List (Code R)} {v w : RunState R H}

/-- A loop ends when its condition does not hold. -/
theorem while_done (hc : Tests p mode cond s false t) :
    Executes p mode (.whileLoop cond body) s (.ok .normal) t := by
  intro st hst
  cases hst with
  | whileLoop he hb => exact .succ (.bind (hc.settles he) (.of_forall fun _ => rfl))

/-- A loop goes on after an iteration that ends normally. -/
theorem while_next {r : Except Stop (Flow R)} (hc : Tests p mode cond s true t)
    (hbody : Iterates p mode body t (.ok .normal) u)
    (h : Executes p mode (.whileLoop cond body) u r v) :
    Executes p mode (.whileLoop cond body) s r v := by
  intro st hst
  cases hst with
  | whileLoop he hb =>
    exact .succ (.bind (hc.settles he) (.bind (hbody.settles hb) (h _ (.whileLoop he hb))))

/-- A break ends the loop. -/
theorem while_break (hc : Tests p mode cond s true t)
    (hbody : Iterates p mode body t (.ok .breakLoop) u) :
    Executes p mode (.whileLoop cond body) s (.ok .normal) u := by
  intro st hst
  cases hst with
  | whileLoop he hb =>
    exact .succ (.bind (hc.settles he) (.bind (hbody.settles hb) (.of_forall fun _ => rfl)))

theorem while_error {why : Stop} (hc : Tests p mode cond s true t)
    (hbody : Iterates p mode body t (.error why) u) :
    Executes p mode (.whileLoop cond body) s (.error why) u := by
  intro st hst
  cases hst with
  | whileLoop he hb => exact .succ (.bind (hc.settles he) (.bind_error (hbody.settles hb)))

end Executes

/-! ### Whole runs -/

/-- A program whose root ends normally runs to its end. -/
theorem Settles.run {root : BlockId} {codes : List (Code R)} (hroot : Code.AtBlock p codes root)
    (h : ExecutesAll p mode codes s (.ok .normal) t) :
    Settles (fun fuel => Interpreter.run p mode fuel root) s (.ok ()) t :=
  .bind (.exec hroot h) (.of_forall fun _ => rfl)

theorem Settles.run_error {root : BlockId} {codes : List (Code R)} {why : Stop}
    (hroot : Code.AtBlock p codes root) (h : ExecutesAll p mode codes s (.error why) t) :
    Settles (fun fuel => Interpreter.run p mode fuel root) s (.error why) t :=
  .bind_error (.exec hroot h)

/-- **An accepted program executes as its run does.** -/
theorem Program.executeIn_of_settles {config : ExecutionConfig} {root : BlockId} {host : H}
    {r : Except Stop Unit} (hverify : p.verify root = .ok ())
    (hrun : Settles (fun fuel => Interpreter.run p config.loopScope fuel root) (.fresh host) r t) :
    ∃ enough, ∀ fuel, enough ≤ fuel →
      p.executeIn config fuel root host = (r.map fun _ => p.interner.named t.env.globals, t) := by
  obtain ⟨enough, hrun⟩ := hrun
  refine ⟨enough, fun fuel hfuel => ?_⟩
  have hr : Interpreter.run p config.loopScope fuel root (.fresh host) = (r, t) := hrun fuel hfuel
  rw [executeIn, hverify]
  dsimp only
  rw [hr]
  cases r <;> rfl

end Rules

end StagedGraph
