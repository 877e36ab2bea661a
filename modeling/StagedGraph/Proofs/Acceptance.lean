import StagedGraph.Execution
import StagedGraph.Graph.Builder
import StagedGraph.Proofs.RunLaws

/-!
# What verification promises

The verifier walks a program once; the interpreter comes back to its blocks and bodies in
any context and any number of times. Between the two stands a judgement that is about the
program alone: `BlockOk p F inLoop inCallable b` says that block `b` may stand in such a
place, given that the functions in `F` may be called. A walk that succeeds derives it for
the root and for the body of every function that it has entered (`exists_accepted`); as the
functions entered are all that the derivations mention, they support one another, however
the bodies call each other.

A run of what is derivable meets none of the faults that the verifier looks for
(`exec_safe`). The induction is on the fuel of the run, so that recursion needs no
derivation of its own. `verify_sound` puts the two together.
-/

namespace StagedGraph

variable {R H α β : Type}

/-- The faults that a verified program does not have. -/
def Fault.isPrevented : Fault → Bool
  | arityMismatch _ _ _ => true
  | breakOutsideLoop => true
  | returnOutsideCallable => true
  | unsealedCallable _ => true
  | cyclicBlock => true
  | undefinedVariable _ => false
  | typeMismatch _ _ => false
  | integerOverflow _ => false
  | native _ _ => false

/-- Of the structural faults, only an undefined variable is not prevented. -/
theorem Fault.eq_undefinedVariable {f : Fault} (hs : f.isStructural = true)
    (hp : f.isPrevented = false) : ∃ name, f = .undefinedVariable name := by
  cases f with
  | undefinedVariable name => exact ⟨name, rfl⟩
  | typeMismatch | integerOverflow | native => cases hs
  | arityMismatch | breakOutsideLoop | returnOutsideCallable | unsealedCallable | cyclicBlock =>
    cases hp

namespace Verifier

/-! ### The judgement -/

/-- An expression that may be evaluated anywhere, if the functions in `F` may be called. -/
inductive ExprOk (p : Program R H) (F : List FuncId) : ExprId → Prop
  | literal {e : ExprId} {v : Value R} : p.expr e = .literal v → ExprOk p F e
  | var {e : ExprId} {x : Name} : p.expr e = .var x → ExprOk p F e
  | neg {e operand : ExprId} : p.expr e = .neg operand → ExprOk p F operand → ExprOk p F e
  | invoke {e : ExprId} {callee : Callee} {args : List ExprId} :
      p.expr e = .invoke callee args → checkInvoke p callee args.length = .ok () →
      (∀ f, callee = .callable f → f ∈ F) → (∀ a ∈ args, ExprOk p F a) → ExprOk p F e

mutual

/-- A statement that may stand in such a place. -/
inductive StmtOk (p : Program R H) (F : List FuncId) : (inLoop inCallable : Bool) → Stmt → Prop
  | expr {l c e} : ExprOk p F e → StmtOk p F l c (.expr e)
  | assign {l c x e} : ExprOk p F e → StmtOk p F l c (.assign x e)
  | ifThen {l c cond b} : ExprOk p F cond → BlockOk p F l c b → StmtOk p F l c (.ifThen cond b)
  | whileLoop {l c cond b} : ExprOk p F cond → BlockOk p F true c b → StmtOk p F l c (.whileLoop cond b)
  | breakLoop {c} : StmtOk p F true c .breakLoop
  | returnVoid {l} : StmtOk p F l true (.returnValue none)
  | returnValue {l e} : ExprOk p F e → StmtOk p F l true (.returnValue (some e))
  | funcDef {l c f} : f ∈ F → StmtOk p F l c (.funcDef f)

/-- A block all of whose statements may stand in such a place. -/
inductive BlockOk (p : Program R H) (F : List FuncId) : (inLoop inCallable : Bool) → BlockId → Prop
  | stmts {l c b} : (∀ s ∈ p.block b, StmtOk p F l c s) → BlockOk p F l c b

end

/-- A function whose body may be executed. -/
def BodyOk (p : Program R H) (F : List FuncId) (f : FuncId) : Prop :=
  BlockOk p F false true (p.func f).body

/-! ### Successful walks -/

/-- What a step of the walk establishes when it succeeds: it forgets no function; and, for
functions that include those entered by then, it establishes `P` and accepts the body of
each function that it entered itself. -/
def Establishes (p : Program R H) (x : Step) (P : List FuncId → Prop) : Prop :=
  ∀ ent ent', x ent = .ok ent' →
    ent ⊆ ent' ∧ ∀ F, ent' ⊆ F → P F ∧ ∀ f ∈ ent', f ∈ ent ∨ BodyOk p F f

namespace Establishes

variable {p : Program R H} {P Q : List FuncId → Prop}

theorem mono {x : Step} (h : Establishes p x P) (hPQ : ∀ F, P F → Q F) : Establishes p x Q := by
  intro ent ent' hx
  obtain ⟨hsub, hF⟩ := h ent ent' hx
  exact ⟨hsub, fun F hs => ⟨hPQ F (hF F hs).1, (hF F hs).2⟩⟩

theorem done (h : ∀ F, P F) : Establishes p .ok P := by
  intro ent ent' hx
  cases hx
  exact ⟨fun _ hf => hf, fun F _ => ⟨h F, fun f hf => .inl hf⟩⟩

theorem fault (f : Fault) : Establishes p (Verifier.fault f) P := nofun

theorem both {x y : Step} (hx : Establishes p x P) (hy : Establishes p y Q) :
    Establishes p (Verifier.both x y) fun F => P F ∧ Q F := by
  intro ent ent'' hxy
  rw [Verifier.both] at hxy
  split at hxy
  · next ent' hent =>
    obtain ⟨hsub, hP⟩ := hx ent ent' hent
    obtain ⟨hsub', hQ⟩ := hy ent' ent'' hxy
    refine ⟨fun f hf => hsub' (hsub hf), fun F hF => ?_⟩
    have hP := hP F fun f hf => hF (hsub' hf)
    refine ⟨⟨hP.1, (hQ F hF).1⟩, fun f hf => ?_⟩
    rcases (hQ F hF).2 f hf with hf | hf
    · exact hP.2 f hf
    · exact .inr hf
  · cases hxy

theorem each {step : α → Step} {P : List FuncId → α → Prop} {as : List α}
    (h : ∀ a ∈ as, Establishes p (step a) (P · a)) :
    Establishes p (Verifier.each step as) fun F => ∀ a ∈ as, P F a := by
  induction as with
  | nil => exact done fun F a ha => nomatch ha
  | cons a as ih =>
    have htail := ih fun b hb => h b (List.mem_cons_of_mem a hb)
    exact ((h a List.mem_cons_self).both htail).mono fun F hF => List.forall_mem_cons.2 hF

end Establishes

variable {p : Program R H}

theorem visitExpr_establishes {enter : FuncId → Step}
    (henter : ∀ f, Establishes p (enter f) (f ∈ ·)) (fuel : Nat) (e : ExprId) :
    Establishes p (visitExpr p enter fuel e) fun F => ExprOk p F e := by
  induction fuel generalizing e with
  | zero => exact nofun
  | succ fuel ih =>
    intro ent ent' hx
    rw [visitExpr] at hx
    split at hx
    · next v he => exact Establishes.done (fun F => .literal he) ent ent' hx
    · next x he => exact Establishes.done (fun F => .var he) ent ent' hx
    · next operand he => exact (ih operand).mono (fun F => .neg he) ent ent' hx
    · next callee args he =>
      have hargs := Establishes.each (P := ExprOk p) fun a (_ : a ∈ args) => ih a
      split at hx
      · cases hx
      · next hcheck =>
        split at hx
        · refine hargs.mono (fun F hF => ?_) ent ent' hx
          exact .invoke he hcheck (fun f hf => nomatch hf) hF
        · next f =>
          refine ((henter f).both hargs).mono (fun F hF => ?_) ent ent' hx
          exact .invoke he hcheck (fun g hg => by cases hg; exact hF.1) hF.2

theorem visitStmt_establishes {expr : ExprId → Step} {block : Context → BlockId → Step}
    {enter : FuncId → Step} (hexpr : ∀ e, Establishes p (expr e) fun F => ExprOk p F e)
    (hblock : ∀ ctx b, Establishes p (block ctx b) fun F => BlockOk p F ctx.inLoop ctx.inCallable b)
    (henter : ∀ f, Establishes p (enter f) (f ∈ ·)) (ctx : Context) (s : Stmt) :
    Establishes p (visitStmt expr block enter ctx s) fun F =>
      StmtOk p F ctx.inLoop ctx.inCallable s := by
  cases s with
  | expr e => exact (hexpr e).mono fun F => .expr
  | assign x e => exact (hexpr e).mono fun F => .assign
  | ifThen cond b => exact ((hexpr cond).both (hblock ctx b)).mono fun F hF => .ifThen hF.1 hF.2
  | whileLoop cond b =>
    exact ((hexpr cond).both (hblock { ctx with inLoop := true } b)).mono fun F hF =>
      .whileLoop hF.1 hF.2
  | breakLoop =>
    rw [visitStmt]
    split
    · next h => exact .done fun F => h ▸ .breakLoop
    · exact .fault _
  | returnValue e =>
    cases e with
    | none =>
      rw [visitStmt]
      split
      · next h => exact .done fun F => h ▸ .returnVoid
      · exact .fault _
    | some e =>
      rw [visitStmt]
      split
      · next h => exact (hexpr e).mono fun F hF => h ▸ .returnValue hF
      · exact .fault _
  | funcDef f => exact (henter f).mono fun F => .funcDef

theorem visitBlock_establishes (fuel : Nat) (ctx : Context) (b : BlockId) :
    Establishes p (visitBlock p fuel ctx b) fun F => BlockOk p F ctx.inLoop ctx.inCallable b := by
  induction fuel generalizing ctx b with
  | zero => exact nofun
  | succ fuel ih =>
    intro ent ent' hx
    change (if b ∈ ctx.path then fault .cyclicBlock ent else _) = _ at hx
    split at hx
    · cases hx
    · -- a function that is entered counts as entered while its body is walked
      have henter (f : FuncId) : Establishes p (fun entered =>
          if f ∈ entered then .ok entered
          else visitBlock p fuel (ctx.enter b).body (p.func f).body (f :: entered)) (f ∈ ·) := by
        intro ent ent' hx
        dsimp only at hx
        split at hx
        · next hf =>
          cases hx
          exact ⟨fun _ hg => hg, fun F hs => ⟨hs hf, fun g hg => .inl hg⟩⟩
        · obtain ⟨hsub, hF⟩ := ih _ _ _ _ hx
          refine ⟨fun g hg => hsub (List.mem_cons_of_mem f hg), fun F hs => ?_⟩
          refine ⟨hs (hsub List.mem_cons_self), fun g hg => ?_⟩
          rcases (hF F hs).2 g hg with hg | hg
          · rcases List.mem_cons.1 hg with rfl | hg
            · exact .inr (hF F hs).1
            · exact .inl hg
          · exact .inr hg
      have hexpr := visitExpr_establishes henter (p.exprs.size + 1)
      have hstmts := Establishes.each fun s (_ : s ∈ p.block b) =>
        visitStmt_establishes hexpr ih henter (ctx.enter b) s
      exact hstmts.mono (fun F hF => .stmts hF) ent ent' hx

/-- A program that verifies is accepted, with a set of functions that support one another. -/
theorem exists_accepted {root : BlockId} (h : p.verify root = .ok ()) :
    ∃ F, (∀ f ∈ F, BodyOk p F f) ∧ BlockOk p F false false root := by
  rw [Program.verify] at h
  cases hent : entered p root with
  | error stop => rw [hent] at h; cases h
  | ok F =>
    obtain ⟨-, hF⟩ := visitBlock_establishes (p.blocks.size + 1) .root root [] F hent
    refine ⟨F, fun f hf => ?_, (hF F fun _ h => h).1⟩
    rcases (hF F fun _ h => h).2 f hf with hf | hf
    · cases hf
    · exact hf

end Verifier

/-! ### Safe runs -/

namespace Run

/-- A result that satisfies `Q`, or a stop for a fault that no verification prevents, or no
end at all. -/
def SafeEnd (Q : α → Prop) : Except Stop α → Prop
  | .ok a => Q a
  | .error (.error e) => e.fault.isPrevented = false
  | .error .aborted => True
  | .error .outOfFuel => True

/-- From every state, the step ends safely. -/
def Safe (x : Run R H α) (Q : α → Prop) : Prop := ∀ s, SafeEnd Q (x s).1

theorem SafeEnd.of_error {Q : β → Prop} {P : α → Prop} {why : Stop} (h : SafeEnd P (.error why)) :
    SafeEnd Q (.error why) := by
  cases why <;> exact h

namespace Safe

variable {P : α → Prop} {Q : β → Prop}

theorem pure {a : α} (h : P a) : Safe (Pure.pure a : Run R H α) P := fun _ => h

theorem bind {x : Run R H α} {f : α → Run R H β} (hx : Safe x P) (hf : ∀ a, P a → Safe (f a) Q) :
    Safe (x >>= f) Q := by
  intro s
  have hs := hx s
  rw [bind_apply]
  rcases hr : x s with ⟨why | a, t⟩
  all_goals rw [hr] at hs
  · exact hs.of_error
  · exact hf a hs t

theorem ofExcept {x : Except Fault α} (hok : ∀ a, x = .ok a → P a)
    (herror : ∀ f, x = .error f → f.isPrevented = false) : Safe (Run.ofExcept x : Run R H α) P := by
  cases x with
  | ok a => exact pure (hok a rfl)
  | error f => exact fun _ => herror f rfl

theorem inScope {kind : ScopeKind} {x : Run R H α} (hx : Safe x P) : Safe (Run.inScope kind x) P :=
  fun s => hx { s with env := s.env.push kind }

/-- The trace that a call adds to an error does not change its fault. -/
theorem inCall {p : Program R H} {f : FuncId} {x : Run R H α} (hx : Safe x P) :
    Safe (Run.inCall p f x) P := by
  intro s
  have hs := hx { s with calls := f :: s.calls }
  unfold Run.inCall
  generalize x { s with calls := f :: s.calls } = r at hs
  obtain ⟨why | a, t⟩ := r
  · cases why with
    | error e =>
      have hfault : (e.withTrace (t.calls.reverse.map p.funcName)).fault = e.fault := by
        rw [EvalError.withTrace]; split <;> rfl
      exact (congrArg Fault.isPrevented hfault).trans hs
    | aborted => trivial
    | outOfFuel => trivial
  · exact hs

end Safe

end Run

/-- The ways in which a statement may end that stands in such a place. -/
def FlowOk (inLoop inCallable : Bool) : Flow R → Prop
  | .normal => True
  | .breakLoop => inLoop = true
  | .returned _ => inCallable = true

namespace Interpreter

open Run Verifier

variable {p : Program R H} {F : List FuncId}

theorem evalAll_safe {eval : ExprId → Run R H (Value R)} {es : List ExprId}
    (h : ∀ e ∈ es, Safe (eval e) fun _ => True) :
    Safe (evalAll eval es) fun vs => vs.length = es.length := by
  induction es with
  | nil => exact .pure rfl
  | cons e es ih =>
    refine (h e List.mem_cons_self).bind fun v _ => ?_
    refine (ih fun e he => h e (List.mem_cons_of_mem _ he)).bind fun vs hvs => .pure ?_
    rw [List.length_cons, hvs, List.length_cons]

/-- A call of an accepted function is safe if its body is; what the body returns is the
value, and there is no break to escape. -/
theorem callFunc_safe {exec : BlockId → Run R H (Flow R)} {f : FuncId} {args : List (Value R)}
    (h : checkInvoke p (.callable f) args.length = .ok ())
    (hbody : Safe (exec (p.func f).body) (FlowOk false true)) :
    Safe (callFunc p exec f args) fun _ => True := by
  rw [checkInvoke] at h
  split at h
  · next hsealed =>
    have hcount : checkArgCount (p.text (p.func f).name) (p.func f).params args.length = .ok () := h
    simp only [callFunc, hsealed, if_true, hcount]
    refine (Safe.pure trivial : Safe (Run.ofExcept (.ok ())) fun _ => True).bind fun _ _ => ?_
    refine (Safe.pure trivial : Safe (Run.ofExcept (.ok ())) fun _ => True).bind fun _ _ => ?_
    refine .inCall (Safe.bind (P := FlowOk false true) (.inScope ?_) fun flow hflow => ?_)
    · exact Safe.bind (P := fun _ => True) (fun _ => trivial) fun _ _ => hbody
    · cases flow with
      | normal => exact .pure trivial
      | breakLoop => cases hflow
      | returned v => exact .pure trivial
  · cases h

theorem execAll_safe {execStmt : Stmt → Run R H (Flow R)} {l c : Bool} {ss : List Stmt}
    (h : ∀ s ∈ ss, Safe (execStmt s) (FlowOk l c)) : Safe (execAll execStmt ss) (FlowOk l c) := by
  induction ss with
  | nil => exact .pure trivial
  | cons s ss ih =>
    refine (h s List.mem_cons_self).bind fun flow hflow => ?_
    cases flow with
    | normal => exact ih fun s hs => h s (List.mem_cons_of_mem _ hs)
    | breakLoop => exact .pure hflow
    | returned v => exact .pure hflow

/-- A native fails under its own name only, once its arity has been checked. -/
theorem callNative_safe {n : NativeId} {args : List (Value R)}
    (h : checkInvoke p (.native n) args.length = .ok ()) :
    Safe (callNative p n args) fun _ => True := by
  intro s
  rw [callNative_apply h]
  cases ((p.native n).op args s.host).1 with
  | value v => trivial
  | failed message => rfl
  | aborted => trivial

variable [Scalar R]

theorem test_safe {eval : ExprId → Run R H (Value R)} {cond : ExprId}
    (h : Safe (eval cond) fun _ => True) : Safe (test eval cond) fun _ => True := by
  refine h.bind fun v _ => .ofExcept (fun _ _ => trivial) fun f hf => ?_
  cases v <;> cases hf <;> rfl

theorem evalExpr_safe {eval : ExprId → Run R H (Value R)} {exec : BlockId → Run R H (Flow R)}
    (hF : ∀ f ∈ F, BodyOk p F f) (heval : ∀ e, ExprOk p F e → Safe (eval e) fun _ => True)
    (hexec : ∀ l c b, BlockOk p F l c b → Safe (exec b) (FlowOk l c)) {e : ExprId}
    (he : ExprOk p F e) : Safe (evalExpr p eval exec (p.expr e)) fun _ => True := by
  cases he with
  | literal hk => rw [hk]; exact .pure trivial
  | @var e x hk =>
    rw [hk]
    intro s
    simp only [evalExpr, Run.lookup]
    split
    · exact trivial
    · rfl
  | neg hk hop =>
    rw [hk]
    refine (heval _ hop).bind fun v _ => .ofExcept (fun _ _ => trivial) fun f hf => ?_
    cases v with
    | int n => rw [Value.negated] at hf; split at hf <;> cases hf; rfl
    | float x => cases hf
    | void | bool | buffer => cases hf; rfl
  | @invoke e callee args hk hcheck hcallee hargs =>
    rw [hk]
    refine (evalAll_safe fun a ha => heval a (hargs a ha)).bind fun vs hvs => ?_
    rw [← hvs] at hcheck
    cases callee with
    | native n => exact callNative_safe hcheck
    | callable f => exact callFunc_safe hcheck (hexec _ _ _ (hF f (hcallee f rfl)))

theorem execStmt_safe {eval : ExprId → Run R H (Value R)} {exec : BlockId → Run R H (Flow R)}
    {loop : ExprId → BlockId → Run R H (Flow R)}
    (heval : ∀ e, ExprOk p F e → Safe (eval e) fun _ => True)
    (hexec : ∀ l c b, BlockOk p F l c b → Safe (exec b) (FlowOk l c))
    (hloop : ∀ l c cond b, ExprOk p F cond → BlockOk p F true c b → Safe (loop cond b) (FlowOk l c))
    {l c : Bool} {s : Stmt} (hs : StmtOk p F l c s) :
    Safe (execStmt eval exec loop s) (FlowOk l c) := by
  cases hs with
  | expr he => exact (heval _ he).bind fun v _ => .pure trivial
  | assign he =>
    exact (heval _ he).bind fun v _ =>
      Safe.bind (P := fun _ => True) (fun _ => trivial) fun _ _ => .pure trivial
  | ifThen hcond hb =>
    refine (test_safe (heval _ hcond)).bind fun holds _ => ?_
    cases holds with
    | true => exact hexec _ _ _ hb
    | false => exact .pure trivial
  | whileLoop hcond hb => exact hloop _ _ _ _ hcond hb
  | breakLoop => exact .pure rfl
  | returnVoid => exact .pure rfl
  | returnValue he => exact (heval _ he).bind fun v _ => .pure rfl
  | funcDef => exact .pure trivial

/-- **A run of what is accepted is safe**, however long it is and however deep its calls. -/
theorem all_safe (hF : ∀ f ∈ F, BodyOk p F f) (mode : LoopScope) (fuel : Nat) :
    (∀ e, ExprOk p F e → Safe (eval p mode fuel e) fun _ => True) ∧
      (∀ l c b, BlockOk p F l c b → Safe (exec p mode fuel b) (FlowOk l c)) ∧
      ∀ l c cond b, ExprOk p F cond → BlockOk p F true c b →
        Safe (loop p mode fuel cond b) (FlowOk l c) := by
  induction fuel with
  | zero => exact ⟨fun _ _ _ => trivial, fun _ _ _ _ _ => trivial, fun _ _ _ _ _ _ _ => trivial⟩
  | succ fuel ih =>
    obtain ⟨heval, hexec, hloop⟩ := ih
    refine ⟨fun e he => ?_, fun l c b hb => ?_, fun l c cond b hcond hb => ?_⟩
    · rw [eval]
      exact evalExpr_safe hF heval hexec he
    · rw [exec]
      obtain ⟨hstmts⟩ := hb
      exact execAll_safe fun s hs => execStmt_safe heval hexec hloop (hstmts s hs)
    · rw [loop]
      refine (test_safe (heval _ hcond)).bind fun holds _ => ?_
      cases holds with
      | false => exact .pure trivial
      | true =>
        have hiter : Safe (iteration mode (exec p mode fuel b)) (FlowOk true c) := by
          cases mode with
          | shared => exact hexec _ _ _ hb
          | perIteration => exact .inScope (hexec _ _ _ hb)
        refine hiter.bind fun flow hflow => ?_
        cases flow with
        | normal => exact hloop _ _ _ _ hcond hb
        | breakLoop => exact .pure trivial
        | returned v => exact .pure hflow

/-- A run of an accepted root is safe: there is no break and no return left over. -/
theorem run_safe (hF : ∀ f ∈ F, BodyOk p F f) {root : BlockId} (hroot : BlockOk p F false false root)
    (mode : LoopScope) (fuel : Nat) : Safe (run p mode fuel root) fun _ => True := by
  refine ((all_safe hF mode fuel).2.1 _ _ _ hroot).bind fun flow hflow => ?_
  cases flow with
  | normal => exact .pure trivial
  | breakLoop => cases hflow
  | returned v => cases hflow

end Interpreter

/-- **Verification is sound.** A run of a program that verifies, from a fresh state and for
natives that do as they please, never ends in one of the faults that the verifier looks for,
so that the only structural fault left to it is an undefined variable. Hence an execution
that does end in one of them has not left the fresh state: no native was called, and the
host is what it was. -/
theorem verify_sound [Scalar R] (p : Program R H) (root : BlockId) (mode : LoopScope) (fuel : Nat)
    (host : H) :
    (p.verify root = .ok () →
      ∀ e, (Interpreter.run p mode fuel root (.fresh host)).1 = .error (.error e) →
        e.fault.isPrevented = false ∧
          (e.fault.isStructural = true → ∃ name, e.fault = .undefinedVariable name)) ∧
    ∀ e, (p.executeIn ⟨mode⟩ fuel root host).1 = .error (.error e) → e.fault.isPrevented = true →
      (p.executeIn ⟨mode⟩ fuel root host).2 = .fresh host ∧
        (p.execute ⟨mode⟩ fuel root host).2 = host := by
  have hsafe (hv : p.verify root = .ok ()) {e : EvalError}
      (he : (Interpreter.run p mode fuel root (.fresh host)).1 = .error (.error e)) :
      e.fault.isPrevented = false := by
    obtain ⟨F, hF, hroot⟩ := Verifier.exists_accepted hv
    have hend := Interpreter.run_safe hF hroot mode fuel (.fresh host)
    rwa [he] at hend
  refine ⟨fun hv e he => ⟨hsafe hv he, fun hs => Fault.eq_undefinedVariable hs (hsafe hv he)⟩,
    fun e he hp => ?_⟩
  cases hv : p.verify root with
  | error stop => simp [Program.execute, Program.executeIn, hv, RunState.fresh]
  | ok u =>
    -- the verifier passed the program, so the fault is none of the prevented ones
    have hrun : (Interpreter.run p mode fuel root (.fresh host)).1 = .error (.error e) := by
      simp only [Program.executeIn, hv] at he
      rcases hr : Interpreter.run p mode fuel root (.fresh host) with ⟨stop | _, s⟩
      · simpa only [hr, Except.error.injEq] using he
      · simp only [hr, reduceCtorEq] at he
    rw [hsafe hv hrun] at hp
    cases hp

/-- A program that counts up in its host and then executes one more statement. -/
def tickThen (last : Build Float Nat Stmt) : BlockId × Program Float Nat :=
  let build : Build Float Nat BlockId := do
    let tick ← Build.native ⟨"tick", .fixed 0, fun _ count => (.value .void, count + 1)⟩
    let root ← Build.block
    let call ← Build.call tick []
    Build.push root (.expr call)
    let stmt ← last
    Build.push root stmt
    return root
  build.run Program.empty

/-- It reads a variable that nothing binds. -/
def tickThenRead : BlockId × Program Float Nat :=
  tickThen (return .expr (← Build.var "x").expr)

/-- It breaks out of no loop. -/
def tickThenBreak : BlockId × Program Float Nat := tickThen (return .breakLoop)

/-- The first program verifies and fails for its variable; the second does not verify and
counts nothing. -/
theorem verify_sound_tick :
    tickThenRead.2.verify tickThenRead.1 = .ok () ∧
      (Interpreter.run tickThenRead.2 .shared 5 tickThenRead.1 (.fresh 0)).1 =
        .error (.error (.ofFault (.undefinedVariable "x"))) ∧
      (∃ name, Fault.undefinedVariable "x" = .undefinedVariable name) ∧
      (tickThenBreak.2.executeIn ⟨.shared⟩ 5 tickThenBreak.1 0).1 =
        .error (.error (.ofFault .breakOutsideLoop)) ∧
      (tickThenBreak.2.execute ⟨.shared⟩ 5 tickThenBreak.1 0).2 = 0 := by
  have hverify : tickThenRead.2.verify tickThenRead.1 = .ok () := rfl
  have hread : (Interpreter.run tickThenRead.2 .shared 5 tickThenRead.1 (.fresh 0)).1 =
      .error (.error (.ofFault (.undefinedVariable "x"))) := rfl
  have hbreak : (tickThenBreak.2.executeIn ⟨.shared⟩ 5 tickThenBreak.1 0).1 =
      .error (.error (.ofFault .breakOutsideLoop)) := rfl
  exact ⟨hverify, hread, ((verify_sound _ _ _ _ _).1 hverify _ hread).2 rfl, hbreak,
    ((verify_sound _ _ _ _ _).2 _ hbreak rfl).2⟩

end StagedGraph
