import Mathlib.Logic.Relation
import StagedGraph.Graph.Builder
import StagedGraph.Proofs.Nesting

/-!
# Programs that were built

A program is built from the empty one by operations that refer only to entries that are
already there. What every program has that came about in this way is proved by induction on
the operations. The one property of this kind that is needed to walk through expressions is
that operands are older than what they are operands of (`Built.operand_lt`).
-/

namespace StagedGraph

open Relation

variable {R H : Type}

namespace Program

/-! ### Operations -/

/-- The name was issued by the program. -/
def HasName (p : Program R H) (x : Name) : Prop := x.index < p.interner.size

/-- The expression was issued by the program. -/
def HasExpr (p : Program R H) (e : ExprId) : Prop := e.index < p.exprs.size

/-- The block was issued by the program. -/
def HasBlock (p : Program R H) (b : BlockId) : Prop := b.index < p.blocks.size

/-- The function was issued by the program. -/
def HasFunc (p : Program R H) (f : FuncId) : Prop := f.index < p.funcs.size

/-- The native was issued by the program. -/
def HasNative (p : Program R H) (n : NativeId) : Prop := n.index < p.natives.size

/-- What is invoked was issued by the program. -/
def HasCallee (p : Program R H) : Callee → Prop
  | .native n => p.HasNative n
  | .callable f => p.HasFunc f

/-- A statement that refers to nothing but entries of the program. -/
def HasStmt (p : Program R H) : Stmt → Prop
  | .expr e => p.HasExpr e
  | .assign x e => p.HasName x ∧ p.HasExpr e
  | .ifThen e b => p.HasExpr e ∧ p.HasBlock b
  | .whileLoop e b => p.HasExpr e ∧ p.HasBlock b
  | .breakLoop => True
  | .returnValue e => ∀ i ∈ e, p.HasExpr i
  | .funcDef f => p.HasFunc f

instance (p : Program R H) (x : Name) : Decidable (p.HasName x) :=
  inferInstanceAs (Decidable (_ < _))

instance (p : Program R H) (e : ExprId) : Decidable (p.HasExpr e) :=
  inferInstanceAs (Decidable (_ < _))

instance (p : Program R H) (b : BlockId) : Decidable (p.HasBlock b) :=
  inferInstanceAs (Decidable (_ < _))

instance (p : Program R H) (f : FuncId) : Decidable (p.HasFunc f) :=
  inferInstanceAs (Decidable (_ < _))

instance (p : Program R H) (n : NativeId) : Decidable (p.HasNative n) :=
  inferInstanceAs (Decidable (_ < _))

instance (p : Program R H) : (callee : Callee) → Decidable (p.HasCallee callee)
  | .native n => inferInstanceAs (Decidable (p.HasNative n))
  | .callable f => inferInstanceAs (Decidable (p.HasFunc f))

instance (p : Program R H) : (s : Stmt) → Decidable (p.HasStmt s)
  | .expr e => inferInstanceAs (Decidable (p.HasExpr e))
  | .assign x e => inferInstanceAs (Decidable (p.HasName x ∧ p.HasExpr e))
  | .ifThen e b => inferInstanceAs (Decidable (p.HasExpr e ∧ p.HasBlock b))
  | .whileLoop e b => inferInstanceAs (Decidable (p.HasExpr e ∧ p.HasBlock b))
  | .breakLoop => inferInstanceAs (Decidable True)
  | .returnValue none => .isTrue nofun
  | .returnValue (some e) => decidable_of_iff (p.HasExpr e) (by simp [HasStmt])
  | .funcDef f => inferInstanceAs (Decidable (p.HasFunc f))

/-- One operation takes a program to another. -/
inductive Builds (p : Program R H) : Program R H → Prop
  | intern (s : String) : Builds p (p.intern s).2
  | literal (v : Value R) : Builds p (p.addExpr (.literal v)).2
  | var (s : String) : Builds p (p.addVar s).2
  | neg {e : ExprId} : p.HasExpr e → Builds p (p.addExpr (.neg e)).2
  | invoke {callee : Callee} {args : List ExprId} : p.HasCallee callee →
      (∀ a ∈ args, p.HasExpr a) → Builds p (p.addExpr (.invoke callee args)).2
  | native (n : Native R H) : Builds p (p.addNative n).2
  | block : Builds p (p.addBlock none).2
  | func (name : String) {params : List Name} : (∀ x ∈ params, p.HasName x) →
      Builds p (p.addFunc name params).2
  | append {b : BlockId} {s : Stmt} {q : Program R H} : p.HasBlock b → p.HasStmt s →
      p.append b s = .ok q → Builds p q
  | appendBody {f : FuncId} {s : Stmt} {q : Program R H} : p.HasFunc f → p.HasStmt s →
      p.appendBody f s = .ok q → Builds p q
  | sealFunc {f : FuncId} {s : Stmt} {q : Program R H} : p.HasFunc f →
      p.sealFunc f = .ok (s, q) → Builds p q
  | increment {x : Var} {add : NativeId} : p.HasName x.name → p.HasExpr x.expr →
      p.HasNative add → Builds p (p.increment x add).2

/-- The program came about by operations of the builder. -/
def Built (p : Program R H) : Prop := ReflTransGen Builds .empty p

/-! ### Operands are older -/

variable {p q : Program R H}

/-- Every operand is older than the expression that it is an operand of. -/
def Layered (p : Program R H) : Prop := ∀ e a, p.Operand e a → a.index < e.index

theorem expr_addExpr (p : Program R H) (k : Expr R) (e : ExprId) :
    (p.addExpr k).2.expr e = if e.index = p.exprs.size then k else p.expr e := by
  simp only [expr, addExpr, Array.getD_eq_getD_getElem?, Array.getElem?_push]
  split <;> rfl

theorem Layered.of_exprs (hp : p.Layered) (h : q.exprs = p.exprs) : q.Layered := by
  intro e a ha
  refine hp e a ?_
  rw [Operand, expr] at ha ⊢
  rwa [h] at ha

theorem Layered.addExpr (hp : p.Layered) {k : Expr R} (hk : ∀ a ∈ k.operands, p.HasExpr a) :
    (p.addExpr k).2.Layered := by
  intro e a ha
  rw [Operand, expr_addExpr] at ha
  split at ha
  · next he => exact he ▸ hk a ha
  · exact hp e a ha

theorem append_eq_push {b : BlockId} {s : Stmt} (h : p.append b s = .ok q) : q = p.push b s := by
  rw [append] at h
  split at h <;> cases h
  rfl

theorem appendBody_eq_push {f : FuncId} {s : Stmt} (h : p.appendBody f s = .ok q) :
    q = p.push (p.func f).body s := by
  rw [appendBody] at h
  split at h <;> cases h
  rfl

theorem sealFunc_eq_markSealed {f : FuncId} {s : Stmt} (h : p.sealFunc f = .ok (s, q)) :
    q = p.markSealed f := by
  rw [sealFunc] at h
  split at h <;> cases h
  rfl

theorem Builds.layered (h : p.Builds q) (hp : p.Layered) : q.Layered := by
  cases h with
  | intern | native | block | func => exact hp.of_exprs rfl
  | literal v => exact hp.addExpr nofun
  | var s => exact (hp.of_exprs rfl : (p.intern s).2.Layered).addExpr nofun
  | neg he => exact hp.addExpr fun a ha => List.mem_singleton.1 ha ▸ he
  | invoke _ hargs => exact hp.addExpr hargs
  | append _ _ h => exact append_eq_push h ▸ hp.of_exprs rfl
  | appendBody _ _ h => exact appendBody_eq_push h ▸ hp.of_exprs rfl
  | sealFunc _ h => exact sealFunc_eq_markSealed h ▸ hp.of_exprs rfl
  | @increment x add _ hx _ =>
    have hone : (p.addExpr (.literal (.int 1))).2.Layered := hp.addExpr nofun
    refine hone.addExpr fun a ha => ?_
    have hsize : (p.addExpr (.literal (.int 1))).2.exprs.size = p.exprs.size + 1 :=
      Array.size_push _
    rw [HasExpr, hsize]
    rcases List.mem_cons.1 ha with rfl | ha
    · exact Nat.lt_succ_of_lt hx
    · exact List.mem_singleton.1 ha ▸ Nat.lt_succ_self _

theorem Built.layered (hp : p.Built) : p.Layered := by
  induction hp with
  | refl => exact nofun
  | tail _ h ih => exact h.layered ih

/-- **An operand is older than the expression that it is an operand of.** -/
theorem Built.operand_lt (hp : p.Built) {e a : ExprId} (ha : p.Operand e a) : a.index < e.index :=
  hp.layered e a ha

end Program

end StagedGraph
