import Mathlib.Data.Set.Finite.Basic
import StagedGraph.Proofs.LoopTests
import StagedGraph.Proofs.SelfDefinition

/-!
# Only loops and recursion run forever

A run that does not end has a loop that goes on, or functions that call one another without end, or
a native that does not come back. Everything else is bounded by the program: an expression that
verifies is a tree, conditions end below a block that verifies (`Verifier.BlockOk.acc`), and calls
end if no function calls itself, since only finitely many functions can be reached
(`acc_of_acyclic`).

So without loops and recursion the fuel that a run needs does not depend on the state that it
starts from (`run_terminates`). The induction is on the functions, from those that call no other;
inside it, on the blocks under conditions; and inside that, on the expressions.

What counts as reached is what a run can come to. A definition is not executed, so that loops and
calls in a function that is defined and never called do not matter.
-/

namespace StagedGraph

open Relation

variable {R H α β : Type}

/-- In a finite set that a relation does not lead out of and that has no cycle, every chain of steps
ends. -/
theorem acc_of_acyclic {r : α → α → Prop} {S : α → Prop} {l : List α} (hfinite : ∀ a, S a → a ∈ l)
    (hstep : ∀ a b, S a → r a b → S b) (hacyclic : ∀ a, S a → ¬ TransGen r a a) {a : α} (ha : S a) :
    Acc (fun b a => r a b) a := by
  have : Finite {a // S a} := (List.finite_toSet l).subset hfinite
  let below (b a : {a // S a}) : Prop := TransGen r a.1 b.1
  have : IsTrans {a // S a} below := ⟨fun _ _ _ hab hbc => hbc.trans hab⟩
  have : Std.Irrefl below := ⟨fun a => hacyclic a.1 a.2⟩
  have key (x : {a // S a}) : Acc (fun b a => r a b) x.1 := by
    induction x using (Finite.wellFounded_of_trans_of_irrefl below).induction with
    | _ x ih => exact .intro _ fun b hb => ih ⟨b, hstep _ _ x.2 hb⟩ (.single hb)
  exact key ⟨a, ha⟩

/-- The functions that an expression invokes itself. -/
def Expr.called : Expr R → List FuncId
  | .invoke (.callable f) _ => [f]
  | _ => []

/-- The statement is a loop. -/
def Stmt.isLoop : Stmt → Bool
  | .whileLoop _ _ => true
  | _ => false

namespace Program

/-! ### Functions that are reached -/

/-- The block, or one under its conditions and loops, invokes the function. -/
def CallsWithin (p : Program R H) (b : BlockId) (f : FuncId) : Prop :=
  ∃ c, ReflTransGen p.Guards b c ∧ p.Calls c f

/-- The body of the first function invokes the second. -/
def Uses (p : Program R H) (f g : FuncId) : Prop := p.CallsWithin (p.func f).body g

/-- The root invokes the function, or another one that leads to it. -/
def Reaches (p : Program R H) (root : BlockId) (f : FuncId) : Prop :=
  ∃ g, p.CallsWithin root g ∧ ReflTransGen p.Uses g f

variable {p : Program R H} {root b c : BlockId} {f g : FuncId} {e : ExprId}

theorem CallsWithin.head (hbc : p.Guards b c) (h : p.CallsWithin c f) : p.CallsWithin b f := by
  obtain ⟨d, hcd, hf⟩ := h
  exact ⟨d, .head hbc hcd, hf⟩

theorem Reaches.tail (h : p.Reaches root f) (hfg : p.Uses f g) : p.Reaches root g := by
  obtain ⟨k, hk, hkf⟩ := h
  exact ⟨k, hk, hkf.tail hfg⟩

/-- Without loops in the program, there are none in its blocks. -/
theorem loopFree_of_forall (h : ∀ i < p.blocks.size, ∀ s ∈ p.block ⟨i⟩, s.isLoop = false)
    (b : BlockId) : p.LoopFree b := by
  intro c _ cond body hloop
  have hissued : c.index < p.blocks.size := Nat.lt_of_not_le fun hle => by
    rw [block_of_size_le hle] at hloop
    cases hloop
  cases h c.index hissued _ hloop

theorem Invokes.of_called (h : f ∈ (p.expr e).called) : p.Invokes e f := by
  cases he : p.expr e with
  | literal | var | neg => rw [he] at h; cases h
  | invoke callee args =>
    rw [he] at h
    cases callee with
    | native n => cases h
    | callable g =>
      obtain rfl := List.mem_singleton.1 h
      exact ⟨e, args, .refl, he⟩

/-- Levels that do not rise under conditions and in operands, and fall at calls, show that no
function calls itself. -/
theorem not_uses_itself (block : BlockId → Nat) (expr : ExprId → Nat)
    (hblocks : ∀ i < p.blocks.size, ∀ s ∈ p.block ⟨i⟩,
      (∀ c ∈ s.guarded, block c ≤ block ⟨i⟩) ∧ ∀ e ∈ s.exprs, expr e ≤ block ⟨i⟩)
    (hexprs : ∀ i < p.exprs.size, (∀ a ∈ (p.expr ⟨i⟩).operands, expr a ≤ expr ⟨i⟩) ∧
      ∀ f ∈ (p.expr ⟨i⟩).called, block (p.func f).body < expr ⟨i⟩) (f : FuncId) :
    ¬ TransGen p.Uses f f := by
  have hblock {b : BlockId} {s : Stmt} (hs : s ∈ p.block b) :
      (∀ c ∈ s.guarded, block c ≤ block b) ∧ ∀ e ∈ s.exprs, expr e ≤ block b := by
    refine hblocks b.index (Nat.lt_of_not_le fun hle => ?_) s hs
    rw [block_of_size_le hle] at hs
    cases hs
  have hguards {b c : BlockId} (h : ReflTransGen p.Guards b c) : block c ≤ block b := by
    induction h with
    | refl => exact Nat.le_refl _
    | tail _ hstep ih =>
      obtain ⟨s, hs, hc⟩ := hstep
      exact Nat.le_trans ((hblock hs).1 _ hc) ih
  have hoperands {e a : ExprId} (h : ReflTransGen p.Operand e a) : expr a ≤ expr e := by
    induction h with
    | refl => exact Nat.le_refl _
    | tail _ ha ih => exact Nat.le_trans ((hexprs _ ha.lt_size).1 _ ha) ih
  have hfalls {f g : FuncId} (h : p.Uses f g) : block (p.func g).body < block (p.func f).body := by
    obtain ⟨c, hc, s, hs, e, he, a, args, ha, hcall⟩ := h
    have hissued : a.index < p.exprs.size := Nat.lt_of_not_le fun hle => by
      rw [expr_of_size_le hle] at hcall
      cases hcall
    have hbody : block (p.func g).body < expr a :=
      (hexprs _ hissued).2 g (by rw [hcall]; exact List.mem_singleton_self g)
    have hstmt := (hblock hs).2 e he
    have hblock := hguards hc
    have hexpr := hoperands ha
    omega
  have hchain {f g : FuncId} (h : TransGen p.Uses f g) :
      block (p.func g).body < block (p.func f).body := by
    induction h with
    | single h => exact hfalls h
    | tail _ h ih => exact Nat.lt_trans (hfalls h) ih
  exact fun h => Nat.lt_irrefl _ (hchain h)

end Program

namespace Verifier

/-! ### What an accepted block calls -/

variable {p : Program R H} {F : List FuncId} {l c : Bool} {b : BlockId} {e : ExprId} {f : FuncId}

theorem ExprOk.operand (h : ExprOk p F e) {a : ExprId} (ha : p.Operand e a) : ExprOk p F a := by
  cases h with
  | literal he | var he =>
    rw [Program.Operand, he] at ha
    cases ha
  | neg he h =>
    rw [Program.Operand, he] at ha
    exact List.mem_singleton.1 ha ▸ h
  | invoke he _ _ hargs =>
    rw [Program.Operand, he] at ha
    exact hargs a ha

/-- The functions that an accepted expression invokes are those that may be called. -/
theorem ExprOk.invokes (h : ExprOk p F e) (hf : p.Invokes e f) : f ∈ F := by
  obtain ⟨a, args, hea, ha⟩ := hf
  induction hea using ReflTransGen.head_induction_on with
  | refl =>
    cases h with
    | literal he | var he | neg he => cases he.symm.trans ha
    | invoke he _ hcallee _ =>
      obtain ⟨rfl, -⟩ := Expr.invoke.inj (he.symm.trans ha)
      exact hcallee f rfl
  | head hoperand _ ih => exact ih (h.operand hoperand)

theorem StmtOk.exprs {s : Stmt} (h : StmtOk p F l c s) : ∀ e ∈ s.exprs, ExprOk p F e := by
  cases h with
  | expr h | assign h | ifThen h | whileLoop h | returnValue h =>
    exact List.forall_mem_singleton.2 h
  | breakLoop | returnVoid | funcDef => exact nofun

/-- The functions that an accepted block leads to are those that may be called. -/
theorem BlockOk.callsWithin (h : BlockOk p F l c b) (hf : p.CallsWithin b f) : f ∈ F := by
  obtain ⟨d, hbd, s, hs, e, he, hf⟩ := hf
  induction hbd using ReflTransGen.head_induction_on generalizing l c with
  | refl =>
    obtain ⟨hstmts⟩ := h
    exact ((hstmts s hs).exprs e he).invokes hf
  | head hguards _ ih =>
    obtain ⟨_, _, h⟩ := h.guards hguards
    exact ih h

/-- The functions that an accepted root reaches are those that may be called. -/
theorem BlockOk.reaches (hF : ∀ f ∈ F, BodyOk p F f) (h : BlockOk p F l c b)
    (hf : p.Reaches b f) : f ∈ F := by
  obtain ⟨g, hg, hgf⟩ := hf
  induction hgf with
  | refl => exact h.callsWithin hg
  | tail _ huses ih => exact BlockOk.callsWithin (hF _ ih) huses

end Verifier

/-! ### Steps that end -/

theorem Ended.cases {r : Except Stop Unit} (h : Ended (ending r)) :
    r = .ok () ∨ ∃ e, r = .error (.error e) := by
  cases r with
  | ok u => exact .inl rfl
  | error why =>
    cases why with
    | error e => exact .inr ⟨e, rfl⟩
    | aborted => exact h.elim
    | outOfFuel => exact h.elim

theorem Ended.ne_outOfFuel {r : Except Stop α} (h : Ended (ending r)) : r ≠ .error .outOfFuel := by
  rintro rfl
  exact h

namespace Run

/-- From every state, the step comes to an end. -/
def Total (x : Run R H α) : Prop := Obeys (fun _ o _ => Ended o) x

namespace Total

theorem pure (a : α) : Total (Pure.pure a : Run R H α) := fun _ => trivial

theorem bind {x : Run R H α} {f : α → Run R H β} (hx : Total x) (hf : ∀ a, Total (f a)) :
    Total (x >>= f) :=
  Obeys.bind (fun _ h => h) hx hf

theorem fail (f : Fault) : Total (Run.fail f : Run R H α) := fun _ => trivial

theorem ofExcept (x : Except Fault α) : Total (Run.ofExcept x : Run R H α) := by
  cases x with
  | ok a => exact pure a
  | error f => exact fail f

theorem lookup (p : Program R H) (x : Name) : Total (Run.lookup p x) := by
  intro s
  unfold Run.lookup
  split
  · trivial
  · trivial

end Total

/-- From some amount of fuel on, the step comes to an end from every state. -/
def Bounded (x : Nat → Run R H α) : Prop := ∃ enough, ∀ fuel, enough ≤ fuel → Total (x fuel)

namespace Bounded

theorem succ {x : Nat → Run R H α} (h : Bounded fun fuel => x (fuel + 1)) : Bounded x := by
  obtain ⟨enough, h⟩ := h
  refine ⟨enough + 1, fun fuel hf => ?_⟩
  obtain ⟨k, rfl⟩ : ∃ k, fuel = k + 1 := ⟨fuel - 1, by omega⟩
  exact h k (by omega)

/-- Steps that are bounded one by one are bounded together. -/
theorem all {as : List α} {x : α → Nat → Run R H β} (h : ∀ a ∈ as, Bounded (x a)) :
    ∃ enough, ∀ fuel, enough ≤ fuel → ∀ a ∈ as, Total (x a fuel) := by
  induction as with
  | nil => exact ⟨0, fun _ _ => nofun⟩
  | cons a as ih =>
    obtain ⟨ha, has⟩ := List.forall_mem_cons.1 h
    obtain ⟨m, ha⟩ := ha
    obtain ⟨n, has⟩ := ih has
    refine ⟨max m n, fun fuel hfuel => List.forall_mem_cons.2 ⟨ha fuel ?_, has fuel ?_⟩⟩
    · omega
    · omega

end Bounded

end Run

namespace Interpreter

open Run Verifier

variable {p : Program R H}

theorem evalAll_total {eval : ExprId → Run R H (Value R)} {es : List ExprId}
    (h : ∀ e ∈ es, Total (eval e)) : Total (evalAll eval es) := by
  induction es with
  | nil => exact .pure []
  | cons e es ih =>
    obtain ⟨he, hes⟩ := List.forall_mem_cons.1 h
    exact .bind he fun v => .bind (ih hes) fun vs => .pure (v :: vs)

theorem callNative_total {n : NativeId}
    (hreturns : ∀ args host, ((p.native n).op args host).1 ≠ .aborted) (args : List (Value R)) :
    Total (callNative p n args) := by
  intro s
  cases harity : checkArity (p.native n).name (p.native n).arity args.length with
  | ok u =>
    rw [callNative_apply harity]
    have hreturns := hreturns args s.host
    cases hout : ((p.native n).op args s.host).1 with
    | value v => trivial
    | failed message => trivial
    | aborted => exact absurd hout hreturns
  | error f =>
    rw [callNative, harity]
    exact Total.fail (α := Value R) f s

theorem callFunc_total {exec : BlockId → Run R H (Flow R)} {f : FuncId}
    (hbody : Total (exec (p.func f).body)) (args : List (Value R)) :
    Total (callFunc p exec f args) := by
  refine .bind (.ofExcept _) fun _ => .bind (.ofExcept _) fun _ s => ?_
  have hs := hbody (s.entered p f args)
  rw [inCall_body_apply]
  generalize exec (p.func f).body (s.entered p f args) = r at hs
  obtain ⟨why | flow, t⟩ := r
  · cases why with
    | error e => trivial
    | aborted => exact hs
    | outOfFuel => exact hs
  · cases flow <;> trivial

theorem execAll_total {execStmt : Stmt → Run R H (Flow R)} {ss : List Stmt}
    (h : ∀ s ∈ ss, Total (execStmt s)) : Total (execAll execStmt ss) := by
  induction ss with
  | nil => exact .pure Flow.normal
  | cons s ss ih =>
    obtain ⟨hs, hss⟩ := List.forall_mem_cons.1 h
    refine .bind hs fun flow => ?_
    cases flow with
    | normal => exact ih hss
    | breakLoop => exact .pure Flow.breakLoop
    | returned v => exact .pure (Flow.returned v)

variable [Scalar R]

/-- An expression ends if its operands, and the body of what it invokes, end. -/
theorem evalExpr_total (hnatives : ∀ n args host, ((p.native n).op args host).1 ≠ .aborted)
    {eval : ExprId → Run R H (Value R)} {exec : BlockId → Run R H (Flow R)} {k : Expr R}
    (heval : ∀ a ∈ k.operands, Total (eval a))
    (hexec : ∀ f ∈ k.called, Total (exec (p.func f).body)) : Total (evalExpr p eval exec k) := by
  cases k with
  | literal v => exact .pure v
  | var x => exact .lookup p x
  | neg e => exact .bind (heval e (List.mem_singleton_self e)) fun v => .ofExcept _
  | invoke callee args =>
    refine .bind (evalAll_total heval) fun vs => ?_
    cases callee with
    | native n => exact callNative_total (hnatives n) vs
    | callable f => exact callFunc_total (hexec f (List.mem_singleton_self f)) vs

/-- A statement that is no loop ends if its expressions and the blocks under it end. -/
theorem execStmt_total {eval : ExprId → Run R H (Value R)} {exec : BlockId → Run R H (Flow R)}
    {loop : ExprId → BlockId → Run R H (Flow R)} {s : Stmt}
    (hs : ∀ cond body, s ≠ .whileLoop cond body) (heval : ∀ e ∈ s.exprs, Total (eval e))
    (hexec : ∀ b ∈ s.guarded, Total (exec b)) : Total (execStmt eval exec loop s) := by
  cases s with
  | expr e => exact .bind (heval e (List.mem_singleton_self e)) fun _ => .pure Flow.normal
  | assign x e =>
    exact .bind (heval e (List.mem_singleton_self e)) fun v =>
      .bind (fun _ => trivial) fun _ => .pure Flow.normal
  | ifThen cond b =>
    have htest : Total (test eval cond) :=
      .bind (heval cond (List.mem_singleton_self cond)) fun v => .ofExcept _
    refine .bind htest fun holds => ?_
    cases holds with
    | true => exact hexec b (List.mem_singleton_self b)
    | false => exact .pure Flow.normal
  | whileLoop cond body => exact absurd rfl (hs cond body)
  | breakLoop => exact .pure Flow.breakLoop
  | returnValue e =>
    cases e with
    | none => exact .pure (Flow.returned .void)
    | some e => exact .bind (heval e (List.mem_singleton_self e)) fun v => .pure (Flow.returned v)
  | funcDef f => exact .pure Flow.normal

/-! ### What bounds a run -/

variable {F : List FuncId} {mode : LoopScope}

/-- One more step bounds an expression, if its operands and what it invokes are bounded. -/
theorem eval_bounded_of (hnatives : ∀ n args host, ((p.native n).op args host).1 ≠ .aborted)
    {e : ExprId} (hoperands : ∀ a ∈ (p.expr e).operands, Bounded fun fuel => eval p mode fuel a)
    (hcalled : ∀ f ∈ (p.expr e).called, Bounded fun fuel => exec p mode fuel (p.func f).body) :
    Bounded fun fuel => eval p mode fuel e := by
  obtain ⟨m, hoperands⟩ := Bounded.all hoperands
  obtain ⟨n, hcalled⟩ := Bounded.all hcalled
  refine .succ ⟨max m n, fun fuel hfuel => ?_⟩
  change Total (eval p mode (fuel + 1) e)
  rw [eval]
  exact evalExpr_total hnatives (hoperands fuel (by omega)) (hcalled fuel (by omega))

/-- An accepted expression is bounded, if what it invokes is. -/
theorem eval_bounded (hnatives : ∀ n args host, ((p.native n).op args host).1 ≠ .aborted)
    {e : ExprId} (he : ExprOk p F e)
    (hcalled : ∀ f, p.Invokes e f → Bounded fun fuel => exec p mode fuel (p.func f).body) :
    Bounded fun fuel => eval p mode fuel e := by
  induction he with
  | literal he | var he =>
    refine eval_bounded_of hnatives ?_ fun f hf => hcalled f (.of_called hf)
    rw [he]
    exact nofun
  | @neg e operand he _ ih =>
    have ha : p.Operand e operand := by rw [Program.Operand, he]; exact List.mem_singleton_self _
    refine eval_bounded_of hnatives ?_ fun f hf => hcalled f (.of_called hf)
    rw [he]
    exact List.forall_mem_singleton.2 (ih fun f hf => hcalled f (hf.operand ha))
  | @invoke e callee args he _ _ _ ih =>
    refine eval_bounded_of hnatives (fun a ha => ?_) fun f hf => hcalled f (.of_called hf)
    have harg : a ∈ args := by rwa [he] at ha
    exact ih a harg fun f hf => hcalled f (hf.operand ha)

/-- **An accepted block without loops is bounded, if what it invokes is.** The induction is on the
blocks under its conditions. -/
theorem exec_bounded (hnatives : ∀ n args host, ((p.native n).op args host).1 ≠ .aborted)
    {l c : Bool} {b : BlockId} (hb : BlockOk p F l c b) (hfree : p.LoopFree b)
    (hcalled : ∀ f, p.CallsWithin b f → Bounded fun fuel => exec p mode fuel (p.func f).body) :
    Bounded fun fuel => exec p mode fuel b := by
  have hacc := hb.acc
  induction hacc generalizing l c with
  | intro b _ ih =>
    have hstmt {s : Stmt} (hs : s ∈ p.block b) : Bounded fun fuel => stmt p mode fuel s := by
      obtain ⟨hstmts⟩ := hb
      have heval : ∀ e ∈ s.exprs, Bounded fun fuel => eval p mode fuel e := fun e he =>
        eval_bounded hnatives ((hstmts s hs).exprs e he) fun f hf =>
          hcalled f ⟨b, .refl, s, hs, e, he, hf⟩
      have hexec : ∀ d ∈ s.guarded, Bounded fun fuel => exec p mode fuel d := fun d hd => by
        have hguards : p.Guards b d := ⟨s, hs, hd⟩
        obtain ⟨_, _, hok⟩ := BlockOk.guards (.stmts hstmts) hguards
        exact ih d hguards hok (hfree.inside hguards) fun f hf => hcalled f (hf.head hguards)
      obtain ⟨m, heval⟩ := Bounded.all heval
      obtain ⟨n, hexec⟩ := Bounded.all hexec
      refine ⟨max m n, fun fuel hfuel => execStmt_total ?_ (heval fuel ?_) (hexec fuel ?_)⟩
      · exact (Program.loopFree_iff.1 hfree s hs).1
      · omega
      · omega
    obtain ⟨enough, hstmts⟩ := Bounded.all fun s hs => hstmt hs
    refine .succ ⟨enough, fun fuel hfuel => ?_⟩
    change Total (exec p mode (fuel + 1) b)
    rw [exec]
    exact execAll_total (hstmts fuel hfuel)

/-- The body of a function is bounded, if calls end there and no function on the way has a loop. -/
theorem body_bounded (hnatives : ∀ n args host, ((p.native n).op args host).1 ≠ .aborted)
    (hF : ∀ f ∈ F, BodyOk p F f) {f : FuncId} (hf : f ∈ F)
    (hfree : ∀ g, ReflTransGen p.Uses f g → p.LoopFree (p.func g).body)
    (hends : Acc (fun g f => p.Uses f g) f) :
    Bounded fun fuel => exec p mode fuel (p.func f).body := by
  induction hends with
  | intro f _ ih =>
    refine exec_bounded hnatives (hF f hf) (hfree f .refl) fun g hg => ?_
    exact ih g hg (BlockOk.callsWithin (hF f hf) hg) fun k hk => hfree k (hk.head hg)

end Interpreter

/-- **Only loops and recursion run forever.** Let a program verify, let there be no loop in the root
or in a function that it reaches, let none of these functions call itself, directly or through
others, and let the natives come back. Then there is an amount of fuel, whatever the state, with
which a run of the root succeeds or fails with an error; more fuel changes nothing. -/
theorem run_terminates [Scalar R] {p : Program R H} {root : BlockId}
    (hverify : p.verify root = .ok ()) (hroot : p.LoopFree root)
    (hbodies : ∀ f, p.Reaches root f → p.LoopFree (p.func f).body)
    (hacyclic : ∀ f, p.Reaches root f → ¬ TransGen p.Uses f f)
    (hnatives : ∀ n args host, ((p.native n).op args host).1 ≠ .aborted) (mode : LoopScope) :
    ∃ enough, ∀ s : RunState R H, ∃ r t, (r = .ok () ∨ ∃ e, r = .error (.error e)) ∧
      ∀ fuel, enough ≤ fuel → Interpreter.run p mode fuel root s = (r, t) := by
  obtain ⟨F, hF, hok⟩ := Verifier.exists_accepted hverify
  have hends {f : FuncId} (hf : p.Reaches root f) : Acc (fun g f => p.Uses f g) f :=
    acc_of_acyclic (fun _ => hok.reaches hF) (fun _ _ => .tail) hacyclic hf
  have hbody {f : FuncId} (hf : p.Reaches root f) :
      Run.Bounded fun fuel => Interpreter.exec p mode fuel (p.func f).body := by
    refine Interpreter.body_bounded hnatives hF (hok.reaches hF hf) (fun g hg => ?_) (hends hf)
    obtain ⟨k, hk, hkf⟩ := hf
    exact hbodies g ⟨k, hk, hkf.trans hg⟩
  have hblock : Run.Bounded fun fuel => Interpreter.exec p mode fuel root :=
    Interpreter.exec_bounded hnatives hok hroot fun f hf => hbody ⟨f, hf, .refl⟩
  obtain ⟨enough, hexec⟩ := hblock
  have hrun : Run.Total (Interpreter.run p mode enough root) := by
    refine .bind (hexec enough (Nat.le_refl _)) fun flow => ?_
    cases flow with
    | normal => exact .pure ()
    | breakLoop => exact .fail _
    | returned v => exact .fail _
  refine ⟨enough, fun s => ?_⟩
  have hended := hrun s
  have hsteady := Interpreter.run_steady p mode root enough
  exact ⟨_, _, hended.cases, fun fuel hfuel => hsteady fuel hfuel s hended.ne_outOfFuel⟩

/-- A root that calls a function, which calls another one under a condition; that one counts up in
the host. -/
def callsDown : BlockId × Program Float Nat :=
  let build : Build Float Nat BlockId := do
    let tick ← Build.native ⟨"tick", .fixed 0, fun _ count => (.value .void, count + 1)⟩
    let g ← Build.func "g" []
    Build.pushBody g (.expr (← Build.call tick []))
    let f ← Build.func "f" []
    let guarded ← Build.block
    Build.push guarded (.expr (← Build.apply g []))
    Build.pushBody f (.ifThen (← Build.literal (.bool true)) guarded)
    let root ← Build.block
    Build.push root (← Build.sealFunc g)
    Build.push root (← Build.sealFunc f)
    Build.push root (.expr (← Build.apply f []))
    return root
  build.run Program.empty

/-- Its run ends, in both functions, whatever the state. -/
theorem run_terminates_callsDown :
    callsDown.2.verify callsDown.1 = .ok () ∧ callsDown.2.LoopFree callsDown.1 ∧
      callsDown.2.Reaches callsDown.1 ⟨0⟩ ∧ (∀ f, ¬ TransGen callsDown.2.Uses f f) ∧
      ∃ enough, ∀ s : RunState Float Nat, ∃ r t, (r = .ok () ∨ ∃ e, r = .error (.error e)) ∧
        ∀ fuel, enough ≤ fuel →
          Interpreter.run callsDown.2 .perIteration fuel callsDown.1 s = (r, t) := by
  have hfree (b : BlockId) : callsDown.2.LoopFree b := Program.loopFree_of_forall (by decide) b
  have hacyclic : ∀ f, ¬ TransGen callsDown.2.Uses f f :=
    Program.not_uses_itself (fun b => [0, 1, 1, 2].getD b.index 0)
      (fun e => [0, 1, 0, 2].getD e.index 0) (by decide) (by decide)
  have hnatives : ∀ n args host, ((callsDown.2.native n).op args host).1 ≠ .aborted := by
    rintro ⟨_ | n⟩ args host h
    · cases h
    · cases h
  have hreaches : callsDown.2.Reaches callsDown.1 ⟨0⟩ := by
    have hroot : callsDown.2.CallsWithin callsDown.1 ⟨1⟩ :=
      ⟨⟨3⟩, .refl, .expr ⟨3⟩, by decide, ⟨3⟩, by decide, ⟨3⟩, [], .refl, rfl⟩
    have hbody : callsDown.2.Uses ⟨1⟩ ⟨0⟩ :=
      ⟨⟨2⟩, .single ⟨.ifThen ⟨2⟩ ⟨2⟩, by decide, by decide⟩, .expr ⟨1⟩, by decide, ⟨1⟩, by decide,
        ⟨1⟩, [], .refl, rfl⟩
    exact ⟨⟨1⟩, hroot, .single hbody⟩
  exact ⟨rfl, hfree _, hreaches, hacyclic, run_terminates rfl (hfree _) (fun f _ => hfree _)
    (fun f _ => hacyclic f) hnatives .perIteration⟩

end StagedGraph
