import Mathlib.Logic.Relation
import StagedGraph.Proofs.RunLaws

/-!
# Dead statements

Two kinds of statements do nothing where they stand: whatever follows a `break` or a `return` in
its own block, and a definition, wherever it is, since a call finds its function by number. One
`DeadEdit` changes a list of statements in one of these ways; two programs that differ by any number
of such edits, in any of their blocks, are `SameButDead`.

What an edit leaves is the live part of a list (`live`): nothing else decides whether one list comes
from another by edits (`eqvGen_deadEdit_iff`), and nothing else is executed (`execAll_live`). As
the fuel of a run is handed to the statements of a block alike, runs of two programs with the same
live parts are equal step by step (`SameButDead.eval_exec_loop`), for the same amount of fuel.
-/

namespace StagedGraph

open Relation

/-! ### Edits -/

namespace Stmt

/-- The statement ends its block. -/
def isJump : Stmt → Bool
  | breakLoop => true
  | returnValue _ => true
  | _ => false

/-- The statement defines a function. -/
def isDefinition : Stmt → Bool
  | funcDef _ => true
  | _ => false

end Stmt

/-- One change to what is dead in a list of statements. -/
inductive DeadEdit : List Stmt → List Stmt → Prop
  /-- What follows a jump is replaced. -/
  | afterJump (before : List Stmt) {jump : Stmt} (rest rest' : List Stmt) : jump.isJump = true →
      DeadEdit (before ++ jump :: rest) (before ++ jump :: rest')
  /-- A definition is added. -/
  | definition (before : List Stmt) (f : FuncId) (rest : List Stmt) :
      DeadEdit (before ++ rest) (before ++ .funcDef f :: rest)

/-- The statements that are no definitions, up to the first jump. -/
def live : List Stmt → List Stmt
  | [] => []
  | st :: rest =>
    if st.isJump then [st] else if st.isDefinition then live rest else st :: live rest

theorem live_cons_jump {st : Stmt} (h : st.isJump = true) (rest : List Stmt) :
    live (st :: rest) = [st] := by
  rw [live, if_pos h]

theorem live_funcDef (f : FuncId) (rest : List Stmt) : live (.funcDef f :: rest) = live rest := rfl

/-- What stands before two lists with the same live part keeps it the same. -/
theorem live_append_congr (before : List Stmt) {xs ys : List Stmt} (h : live xs = live ys) :
    live (before ++ xs) = live (before ++ ys) := by
  induction before with
  | nil => exact h
  | cons st before ih => rw [List.cons_append, List.cons_append, live, live, ih]

theorem DeadEdit.live_eq {xs ys : List Stmt} (h : DeadEdit xs ys) : live xs = live ys := by
  cases h with
  | afterJump before rest rest' hjump =>
    refine live_append_congr before ?_
    rw [live_cons_jump hjump, live_cons_jump hjump]
  | definition before f rest => exact live_append_congr before (live_funcDef f rest).symm

/-- Edits may be made behind a statement that stays. -/
theorem DeadEdit.cons (st : Stmt) {xs ys : List Stmt} (h : DeadEdit xs ys) :
    DeadEdit (st :: xs) (st :: ys) := by
  cases h with
  | afterJump before rest rest' hjump => exact .afterJump (st :: before) rest rest' hjump
  | definition before f rest => exact .definition (st :: before) f rest

theorem eqvGen_deadEdit_cons (st : Stmt) {xs ys : List Stmt} (h : EqvGen DeadEdit xs ys) :
    EqvGen DeadEdit (st :: xs) (st :: ys) := by
  induction h with
  | rel _ _ h => exact .rel _ _ (h.cons st)
  | refl _ => exact .refl _
  | symm _ _ _ ih => exact .symm _ _ ih
  | trans _ _ _ _ _ ih₁ ih₂ => exact .trans _ _ _ ih₁ ih₂

/-- Edits take every list to its live part. -/
theorem eqvGen_live (xs : List Stmt) : EqvGen DeadEdit xs (live xs) := by
  induction xs with
  | nil => exact .refl []
  | cons st rest ih =>
    have hrest : EqvGen DeadEdit (st :: rest) (st :: live rest) := eqvGen_deadEdit_cons st ih
    rw [live]
    split
    · next hjump => exact .rel _ _ (.afterJump [] rest [] hjump)
    · split
      · next hdef =>
        cases st with
        | funcDef f =>
          exact .trans _ _ _ hrest (.symm _ _ (.rel _ _ (.definition [] f (live rest))))
        | _ => cases hdef
      · exact hrest

/-- Lists of statements differ by edits of what is dead if and only if what is live is the same. -/
theorem eqvGen_deadEdit_iff {xs ys : List Stmt} : EqvGen DeadEdit xs ys ↔ live xs = live ys := by
  constructor
  · intro h
    induction h with
    | rel _ _ h => exact h.live_eq
    | refl _ => rfl
    | symm _ _ _ ih => exact ih.symm
    | trans _ _ _ _ _ ih₁ ih₂ => exact ih₁.trans ih₂
  · intro h
    exact .trans _ _ _ (eqvGen_live xs) (h ▸ .symm _ _ (eqvGen_live ys))

instance (xs ys : List Stmt) : Decidable (EqvGen DeadEdit xs ys) :=
  decidable_of_iff (live xs = live ys) eqvGen_deadEdit_iff.symm

variable {R H : Type}

/-- Two programs that are equal but for what is dead in their blocks. -/
structure Program.SameButDead (p q : Program R H) : Prop where
  interner : p.interner = q.interner
  exprs : p.exprs = q.exprs
  funcs : p.funcs = q.funcs
  natives : p.natives = q.natives
  size : p.blocks.size = q.blocks.size
  blocks : ∀ b, EqvGen DeadEdit (p.block b) (q.block b)

/-! ### Executing what is live -/

namespace Interpreter

variable [Scalar R] {p q : Program R H}

/-- Nothing after a jump is executed. -/
theorem execAll_jump {eval : ExprId → Run R H (Value R)} {exec : BlockId → Run R H (Flow R)}
    {loop : ExprId → BlockId → Run R H (Flow R)} {jump : Stmt} (hjump : jump.isJump = true)
    (rest : List Stmt) :
    execAll (execStmt eval exec loop) (jump :: rest) = execAll (execStmt eval exec loop) [jump] := by
  cases jump with
  | breakLoop => rfl
  | returnValue e =>
    cases e with
    | none => rfl
    | some e =>
      funext s
      simp only [execAll, execStmt, Run.bind_apply]
      rcases eval e s with ⟨_ | v, t⟩ <;> rfl
  | expr | assign | ifThen | whileLoop | funcDef => cases hjump

/-- Executing statements is executing those that are live. -/
theorem execAll_live (eval : ExprId → Run R H (Value R)) (exec : BlockId → Run R H (Flow R))
    (loop : ExprId → BlockId → Run R H (Flow R)) (sts : List Stmt) :
    execAll (execStmt eval exec loop) sts = execAll (execStmt eval exec loop) (live sts) := by
  induction sts with
  | nil => rfl
  | cons st rest ih =>
    rw [live]
    split
    · next hjump => exact execAll_jump hjump rest
    · split
      · next hdef =>
        cases st with
        | funcDef f => exact ih
        | _ => cases hdef
      · rw [execAll, execAll, ih]

end Interpreter

namespace Program.SameButDead

variable {p q : Program R H}

theorem expr_eq (h : p.SameButDead q) (e : ExprId) : p.expr e = q.expr e := by
  rw [Program.expr, Program.expr, h.exprs]

theorem text_eq (h : p.SameButDead q) (x : Name) : p.text x = q.text x := by
  rw [Program.text, Program.text, h.interner]

theorem native_eq (h : p.SameButDead q) (n : NativeId) : p.native n = q.native n := by
  rw [Program.native, Program.native, h.natives]

theorem func_eq (h : p.SameButDead q) (f : FuncId) : p.func f = q.func f := by
  rw [Program.func, Program.func, h.funcs, h.size]

theorem funcName_eq (h : p.SameButDead q) : p.funcName = q.funcName := by
  funext f
  rw [Program.funcName, Program.funcName, h.func_eq, h.text_eq]

theorem lookup_eq (h : p.SameButDead q) (x : Name) :
    (Run.lookup p x : Run R H (Value R)) = Run.lookup q x := by
  funext s
  unfold Run.lookup
  rw [h.text_eq]

theorem callNative_eq (h : p.SameButDead q) : Interpreter.callNative p = Interpreter.callNative q := by
  funext n args
  unfold Interpreter.callNative
  rw [h.native_eq]

theorem inCall_eq (h : p.SameButDead q) (f : FuncId) (x : Run R H (Value R)) :
    Run.inCall p f x = Run.inCall q f x := by
  funext s
  rw [Run.inCall, Run.inCall, h.funcName_eq]

theorem callFunc_eq (h : p.SameButDead q) : Interpreter.callFunc p = Interpreter.callFunc q := by
  funext exec f args
  simp only [Interpreter.callFunc, h.func_eq, h.text_eq, h.inCall_eq]

variable [Scalar R]

theorem evalExpr_eq (h : p.SameButDead q) : Interpreter.evalExpr p = Interpreter.evalExpr q := by
  funext eval exec e
  cases e with
  | literal v => rfl
  | var x => exact h.lookup_eq x
  | neg e => rfl
  | invoke callee args => rw [Interpreter.evalExpr, Interpreter.evalExpr, h.callNative_eq, h.callFunc_eq]

/-- Expressions, blocks and loops of the two programs do the same, with the same fuel. -/
theorem eval_exec_loop (h : p.SameButDead q) (mode : LoopScope) (fuel : Nat) :
    Interpreter.eval p mode fuel = Interpreter.eval q mode fuel ∧
      Interpreter.exec p mode fuel = Interpreter.exec q mode fuel ∧
      Interpreter.loop p mode fuel = Interpreter.loop q mode fuel := by
  induction fuel with
  | zero => exact ⟨rfl, rfl, rfl⟩
  | succ fuel ih =>
    obtain ⟨heval, hexec, hloop⟩ := ih
    refine ⟨funext fun e => ?_, funext fun b => ?_, funext fun cond => funext fun body => ?_⟩
    · rw [Interpreter.eval, Interpreter.eval, heval, hexec, h.evalExpr_eq, h.expr_eq]
    · rw [Interpreter.exec, Interpreter.exec, heval, hexec, hloop, Interpreter.execAll_live,
        eqvGen_deadEdit_iff.1 (h.blocks b), ← Interpreter.execAll_live]
    · rw [Interpreter.loop, Interpreter.loop, heval, hexec, hloop]

end Program.SameButDead

/-- **Dead statements are never felt.** Take two programs that are equal but for what follows a jump
in its block, and for definitions, in any of their blocks. A run of a block of the one is a run of
that block of the other: whatever the policy for loops, the fuel and the state before, with the
natives doing whatever they do, it ends in the same way, with the same trace of an error, the same
bindings and the same history of calls. -/
theorem run_eq_of_sameButDead [Scalar R] {p q : Program R H} (h : p.SameButDead q)
    (mode : LoopScope) (fuel : Nat) (root : BlockId) (s : RunState R H) :
    Interpreter.run p mode fuel root s = Interpreter.run q mode fuel root s := by
  have hexec : Interpreter.exec p mode fuel = Interpreter.exec q mode fuel :=
    (h.eval_exec_loop mode fuel).2.1
  unfold Interpreter.run
  rw [hexec]

/-- A root that defines a function and has a loop. The function and the loop have these bodies; there
are a call of the native `tick`, a call of the function and a condition for them to use. -/
def ticking (f body : List Stmt) : Program Float Nat where
  interner := (Interner.empty.intern "f").2
  exprs := #[.invoke (.native ⟨0⟩) [], .invoke (.callable ⟨0⟩) [], .literal (.bool true)]
  blocks := #[⟨f, some ⟨0⟩⟩, ⟨body, none⟩, ⟨[.funcDef ⟨0⟩, .whileLoop ⟨2⟩ ⟨1⟩], none⟩]
  funcs := #[⟨(Interner.empty.intern "f").1, [], ⟨0⟩, true⟩]
  natives := #[⟨"tick", .fixed 0, fun _ count => (.value (.int 0), count + 1)⟩]

/-- The function returns the value of `tick`, and the loop is left after one call of it. -/
def ticksOnce : Program Float Nat :=
  ticking [.returnValue (some ⟨0⟩)] [.expr ⟨1⟩, .breakLoop]

/-- The same with another call and a loop without end behind the return, another call behind the
break, and the definition at two more places. -/
def ticksOncePadded : Program Float Nat :=
  ticking [.funcDef ⟨0⟩, .returnValue (some ⟨0⟩), .expr ⟨0⟩, .whileLoop ⟨2⟩ ⟨1⟩]
    [.expr ⟨1⟩, .funcDef ⟨0⟩, .breakLoop, .expr ⟨0⟩]

/-- The padding is not felt: `tick` is called once by either. -/
theorem run_eq_of_sameButDead_ticksOnce :
    ticksOnce.SameButDead ticksOncePadded ∧
      (∀ mode fuel s, Interpreter.run ticksOnce mode fuel ⟨2⟩ s =
        Interpreter.run ticksOncePadded mode fuel ⟨2⟩ s) ∧
      (Interpreter.run ticksOncePadded .shared 6 ⟨2⟩ (.fresh 0)).2.history =
        [.called ⟨0⟩ [] (.value (.int 0))] := by
  have hsame : ticksOnce.SameButDead ticksOncePadded := by
    refine ⟨rfl, rfl, rfl, rfl, rfl, fun b => ?_⟩
    rcases b with ⟨_ | _ | _ | b⟩
    · decide
    · decide
    · exact .refl _
    · exact .refl _
  exact ⟨hsame, fun mode fuel => run_eq_of_sameButDead hsame mode fuel _, rfl⟩

end StagedGraph
