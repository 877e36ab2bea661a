import Mathlib.Logic.Relation
import StagedGraph.Graph.Basic

/-!
# Nesting and calls

The blocks of a program are nested by conditions, loops and definitions; apart from that, a
block calls the functions that its expressions invoke. A block that is nested in itself has
no text and no end. A function that comes back to itself by a call is recursion, and there
is nothing wrong with it. So the two relations are kept apart: `Nests` is nesting, `Leads`
is nesting or a call.

A `Place` is a block together with the functions that were entered on the way to it. Walks
from place to place enter no function twice; this is how a program is walked by somebody
who remembers which bodies were seen.
-/

namespace StagedGraph

open Relation

variable {R H : Type}

/-! ### Chains of steps -/

section

variable {α : Type} {r s : α → α → Prop} {a b c : α}

/-- A chain of steps of two kinds has steps of the first kind only, or somewhere a step of
the second. -/
theorem transGen_or_cases (h : TransGen (fun x y => r x y ∨ s x y) a c) :
    TransGen r a c ∨ ∃ b b', ReflTransGen (fun x y => r x y ∨ s x y) a b ∧ s b b' ∧
      ReflTransGen (fun x y => r x y ∨ s x y) b' c := by
  induction h with
  | single h =>
    rcases h with h | h
    · exact .inl (.single h)
    · exact .inr ⟨_, _, .refl, h, .refl⟩
  | tail hac h ih =>
    rcases ih with hr | ⟨b, b', hab, hs, hbc⟩
    · rcases h with h | h
      · exact .inl (hr.tail h)
      · exact .inr ⟨_, _, hac.to_reflTransGen, h, .refl⟩
    · exact .inr ⟨b, b', hab, hs, hbc.tail h⟩

/-- Where every chain of steps ends, none comes back. -/
theorem not_transGen_of_acc (h : Acc (fun y x => r x y) a) (hab : ReflTransGen r a b) :
    ¬ TransGen r b b := by
  induction h with
  | intro a _ ih =>
    intro hb
    obtain ⟨d, hd, hdb⟩ : ∃ d, r a d ∧ ReflTransGen r d b := by
      rcases hab.cases_head with rfl | hstep
      · exact TransGen.head'_iff.1 hb
      · exact hstep
    exact ih d hd hdb hb

end

namespace Stmt

/-- The blocks that a statement makes depend on its condition. -/
def guarded : Stmt → List BlockId
  | ifThen _ b => [b]
  | whileLoop _ b => [b]
  | _ => []

/-- The blocks that stand inside a statement. -/
def nested (p : Program R H) : Stmt → List BlockId
  | funcDef f => [(p.func f).body]
  | s => s.guarded

/-- The expressions of a statement. -/
def exprs : Stmt → List ExprId
  | expr e => [e]
  | assign _ e => [e]
  | ifThen e _ => [e]
  | whileLoop e _ => [e]
  | returnValue (some e) => [e]
  | _ => []

end Stmt

namespace Program

/-! ### Steps between blocks -/

/-- A condition or a loop of the first block guards the second. -/
def Guards (p : Program R H) (b c : BlockId) : Prop := ∃ s ∈ p.block b, c ∈ s.guarded

/-- The function is defined in the block. -/
def Defines (p : Program R H) (b : BlockId) (f : FuncId) : Prop := .funcDef f ∈ p.block b

/-- The second expression is an operand of the first. -/
def Operand (p : Program R H) (e a : ExprId) : Prop := a ∈ (p.expr e).operands

/-- The expression invokes the function, itself or in an operand. -/
def Invokes (p : Program R H) (e : ExprId) (f : FuncId) : Prop :=
  ∃ a args, ReflTransGen p.Operand e a ∧ p.expr a = .invoke (.callable f) args

/-- An expression of the block invokes the function. -/
def Calls (p : Program R H) (b : BlockId) (f : FuncId) : Prop :=
  ∃ s ∈ p.block b, ∃ e ∈ s.exprs, p.Invokes e f

/-- The blocks that stand directly inside a block. -/
def nested (p : Program R H) (b : BlockId) : List BlockId := (p.block b).flatMap (Stmt.nested p)

/-- The second block stands directly inside the first. -/
def Nests (p : Program R H) (b c : BlockId) : Prop := c ∈ p.nested b

/-- The second block stands inside the first, or is the body of a function that it calls. -/
def Leads (p : Program R H) (b c : BlockId) : Prop :=
  p.Nests b c ∨ ∃ f, p.Calls b f ∧ (p.func f).body = c

/-- The block stands inside itself. -/
def NestedInItself (p : Program R H) (b : BlockId) : Prop := TransGen p.Nests b b

variable {p : Program R H} {a b c : BlockId} {e : ExprId} {f : FuncId} {s : Stmt}

theorem Guards.nests (h : p.Guards b c) : p.Nests b c := by
  obtain ⟨s, hs, hc⟩ := h
  refine List.mem_flatMap.2 ⟨s, hs, ?_⟩
  cases s with
  | ifThen | whileLoop => exact hc
  | expr | assign | breakLoop | returnValue | funcDef => cases hc

theorem Defines.nests (h : p.Defines b f) : p.Nests b (p.func f).body :=
  List.mem_flatMap.2 ⟨_, h, List.mem_singleton_self _⟩

/-- What stands inside a block is guarded there, or is the body of a function defined there. -/
theorem nests_iff : p.Nests b c ↔ p.Guards b c ∨ ∃ f, p.Defines b f ∧ (p.func f).body = c := by
  refine ⟨fun h => ?_, ?_⟩
  · obtain ⟨s, hs, hc⟩ := List.mem_flatMap.1 h
    cases s with
    | funcDef f => exact .inr ⟨f, hs, (List.mem_singleton.1 hc).symm⟩
    | ifThen | whileLoop => exact .inl ⟨_, hs, hc⟩
    | expr | assign | breakLoop | returnValue => cases hc
  · rintro (h | ⟨f, h, rfl⟩)
    · exact h.nests
    · exact h.nests

theorem Invokes.operand {a : ExprId} (h : p.Invokes a f) (ha : p.Operand e a) : p.Invokes e f := by
  obtain ⟨i, args, hi, he⟩ := h
  exact ⟨i, args, hi.head ha, he⟩

theorem expr_of_size_le (h : p.exprs.size ≤ e.index) : p.expr e = .literal .void := by
  rw [expr, Array.getD_eq_getD_getElem?, Array.getElem?_eq_none h]
  rfl

/-- Only an expression of the program has operands. -/
theorem Operand.lt_size {a : ExprId} (h : p.Operand e a) : e.index < p.exprs.size := by
  refine Nat.lt_of_not_le fun hle => ?_
  rw [Operand, expr_of_size_le hle] at h
  cases h

theorem block_of_size_le (h : p.blocks.size ≤ b.index) : p.block b = [] := by
  rw [block, Array.getD_eq_getD_getElem?, Array.getElem?_eq_none h]
  rfl

/-- Only a block of the program has another inside it. -/
theorem Nests.lt_size (h : p.Nests b c) : b.index < p.blocks.size := by
  refine Nat.lt_of_not_le fun hle => ?_
  rw [Nests, nested, block_of_size_le hle] at h
  cases h

/-- A number that falls along nesting shows that no block is nested in itself. -/
theorem not_nestedInItself (rank : BlockId → Nat)
    (h : ∀ i < p.blocks.size, ∀ c ∈ p.nested ⟨i⟩, rank c < rank ⟨i⟩) (b : BlockId) :
    ¬ p.NestedInItself b := by
  have hfalls {b c : BlockId} (hc : TransGen p.Nests b c) : rank c < rank b := by
    induction hc with
    | single hc => exact h _ hc.lt_size _ hc
    | tail _ hc ih => exact Nat.lt_trans (h _ hc.lt_size _ hc) ih
  exact fun hcycle => Nat.lt_irrefl _ (hfalls hcycle)

/-! ### Walks -/

/-- Where a walk stands: the block that it has come to, and the functions that it has
entered, the latest first. -/
structure Place where
  block : BlockId
  entered : List FuncId

/-- A step to a block inside; a function that is defined there is entered only once. -/
inductive Descends (p : Program R H) : Place → Place → Prop
  | guarded {b c fs} : p.Guards b c → Descends p ⟨b, fs⟩ ⟨c, fs⟩
  | defined {b f fs} : p.Defines b f → f ∉ fs → Descends p ⟨b, fs⟩ ⟨(p.func f).body, f :: fs⟩

/-- A step into a function that is called and that was not entered before. -/
inductive Jumps (p : Program R H) : Place → Place → Prop
  | called {b f fs} : p.Calls b f → f ∉ fs → Jumps p ⟨b, fs⟩ ⟨(p.func f).body, f :: fs⟩

/-- A step of either kind. -/
def Moves (p : Program R H) (x y : Place) : Prop := p.Descends x y ∨ p.Jumps x y

/-- Where a walk from a block starts. -/
def Place.start (root : BlockId) : Place := ⟨root, []⟩

variable {x y : Place}

theorem Descends.nests (h : p.Descends x y) : p.Nests x.block y.block := by
  cases h with
  | guarded hc => exact hc.nests
  | defined hf _ => exact hf.nests

theorem Moves.leads (h : p.Moves x y) : p.Leads x.block y.block := by
  rcases h with h | ⟨hf, -⟩
  · exact .inl h.nests
  · exact .inr ⟨_, hf, rfl⟩

theorem Moves.entered_subset (h : p.Moves x y) : x.entered ⊆ y.entered := by
  rcases h with h | h
  · cases h with
    | guarded _ => exact fun _ hf => hf
    | defined _ _ => exact List.subset_cons_self _ _
  · cases h with
    | called _ _ => exact List.subset_cons_self _ _

theorem entered_subset (h : ReflTransGen p.Moves x y) : x.entered ⊆ y.entered := by
  induction h with
  | refl => exact fun _ hf => hf
  | tail _ h ih => exact fun _ hf => h.entered_subset (ih hf)

end Program

end StagedGraph
