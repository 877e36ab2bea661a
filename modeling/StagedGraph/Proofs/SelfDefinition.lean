import StagedGraph.Proofs.Acceptance
import StagedGraph.Proofs.Printing

/-!
# What the verifier lets the printer meet

The verifier refuses a block that its own conditions and loops lead back to, so nesting by
conditions and loops ends everywhere in a program that verifies (`Verifier.BlockOk.acc`). It
enters the body of a function only once, however, and passes over the definitions of the
function that it meets after that, also those inside the body itself. The printer enters the
body at each of them.

Hence the two agree except on functions that are defined inside their own bodies: a program
that verifies has a text exactly if there is no such function (`verified_print_iff`).
-/

namespace StagedGraph

open Relation

variable {R H : Type}

namespace Verifier

variable {p : Program R H} {F : List FuncId}

mutual

/-- Conditions and loops end below the blocks that an accepted statement guards. -/
theorem StmtOk.acc {l c : Bool} {s : Stmt} :
    StmtOk p F l c s → ∀ b ∈ s.guarded, Acc (fun c b => p.Guards b c) b
  | .ifThen _ hb, _, hmem => List.mem_singleton.1 hmem ▸ hb.acc
  | .whileLoop _ hb, _, hmem => List.mem_singleton.1 hmem ▸ hb.acc

/-- Conditions and loops end below an accepted block. -/
theorem BlockOk.acc {l c : Bool} {b : BlockId} :
    BlockOk p F l c b → Acc (fun c b => p.Guards b c) b
  | .stmts hstmts => .intro _ fun _ ⟨s, hs, hc⟩ => (hstmts s hs).acc _ hc

end

/-- The blocks under an accepted condition or loop are accepted. -/
theorem BlockOk.guards {l c : Bool} {a b : BlockId} (h : BlockOk p F l c a) (hab : p.Guards a b) :
    ∃ l c, BlockOk p F l c b := by
  obtain ⟨hstmts⟩ := h
  obtain ⟨s, hs, hb⟩ := hab
  cases hstmts s hs with
  | ifThen _ hok => exact ⟨_, _, List.mem_singleton.1 hb ▸ hok⟩
  | whileLoop _ hok => exact ⟨_, _, List.mem_singleton.1 hb ▸ hok⟩
  | expr | assign | breakLoop | returnVoid | returnValue | funcDef => cases hb

/-- A function that is defined in an accepted block is one of those that may be called. -/
theorem BlockOk.defines {l c : Bool} {a : BlockId} {f : FuncId} (h : BlockOk p F l c a)
    (hf : p.Defines a f) : f ∈ F := by
  obtain ⟨hstmts⟩ := h
  cases hstmts _ hf with
  | funcDef hmem => exact hmem

/-- Every block that stands inside an accepted block is accepted. -/
theorem BlockOk.inside (hF : ∀ f ∈ F, BodyOk p F f) {root b : BlockId} {l c : Bool}
    (hroot : BlockOk p F l c root) (hb : ReflTransGen p.Nests root b) :
    ∃ l c, BlockOk p F l c b := by
  induction hb with
  | refl => exact ⟨l, c, hroot⟩
  | tail _ hstep ih =>
    obtain ⟨_, _, hok⟩ := ih
    rcases Program.nests_iff.1 hstep with hguards | ⟨f, hf, rfl⟩
    · exact hok.guards hguards
    · exact ⟨false, true, hF f (hok.defines hf)⟩

end Verifier

namespace Program

variable {p : Program R H} {root b : BlockId} {f : FuncId}

/-- The function is defined somewhere inside its own body. -/
def DefinedInItself (p : Program R H) (f : FuncId) : Prop :=
  ∃ c, ReflTransGen p.Nests (p.func f).body c ∧ p.Defines c f

theorem DefinedInItself.nestedInItself (h : p.DefinedInItself f) :
    p.NestedInItself (p.func f).body := by
  obtain ⟨c, hc, hf⟩ := h
  exact .tail' hc hf.nests

/-- A block that is nested in itself is so by conditions and loops alone, or a function on the
way is defined inside its own body. -/
theorem NestedInItself.cases (h : p.NestedInItself b) :
    TransGen p.Guards b b ∨
      ∃ a f, ReflTransGen p.Nests b a ∧ p.Defines a f ∧ p.DefinedInItself f := by
  have hback (x y : BlockId) :
      p.Guards x y ∨ (∃ f, p.Defines x f ∧ (p.func f).body = y) → p.Nests x y :=
    nests_iff.2
  have hsteps : TransGen (fun x y => p.Guards x y ∨ ∃ f, p.Defines x f ∧ (p.func f).body = y) b b :=
    TransGen.mono (fun _ _ => nests_iff.1) _ _ h
  rcases transGen_or_cases hsteps with
    hguards | ⟨a, _, hba, ⟨f, hf, rfl⟩, hab⟩
  · exact .inl hguards
  · have hba := ReflTransGen.mono hback _ _ hba
    exact .inr ⟨a, f, hba, hf, a, (ReflTransGen.mono hback _ _ hab).trans hba, hf⟩

/-- No block of a program that verifies is nested in itself by conditions and loops alone. -/
theorem not_transGen_guards (h : p.verify root = .ok ()) (hb : ReflTransGen p.Nests root b) :
    ¬ TransGen p.Guards b b := by
  obtain ⟨F, hF, hroot⟩ := Verifier.exists_accepted h
  obtain ⟨_, _, hok⟩ := hroot.inside hF hb
  exact not_transGen_of_acc hok.acc .refl

end Program

/-- **A program that verifies has a text exactly if no function is defined inside its own
body**, where the functions are those that the printer meets. -/
theorem verified_print_iff {p : Program R H} (hp : p.Built) {root : BlockId}
    (hv : p.verify root = .ok ()) :
    (∃ text, p.print root = .ok text) ↔
      ∀ b f, ReflTransGen p.Nests root b → p.Defines b f → ¬ p.DefinedInItself f := by
  rw [Program.print_succeeds_iff hp.layered]
  refine ⟨fun h b f hb hf hself => ?_, fun h b hb hnested => ?_⟩
  · exact h _ (hb.tail hf.nests) hself.nestedInItself
  · rcases hnested.cases with hguards | ⟨a, f, hba, hf, hself⟩
    · exact Program.not_transGen_guards hv hb hguards
    · exact h a f (hb.trans hba) hf hself

/-- A sealed function with an empty block under a condition of its body: the function, the block
and the definition of the function. -/
def conditional : Build Float Nat (FuncId × BlockId × Stmt) := do
  let cond ← Build.literal (.bool false)
  let f ← Build.func "f" []
  let b ← Build.block
  Build.pushBody f (.ifThen cond b)
  return (f, b, ← Build.sealFunc f)

/-- The function with a statement put into the block, and a root that defines the function. -/
def defining (inner : FuncId → Stmt → Build Float Nat Stmt) : BlockId × Program Float Nat :=
  let build : Build Float Nat BlockId := do
    let (f, b, definition) ← conditional
    Build.push b (← inner f definition)
    let root ← Build.block
    Build.push root definition
    return root
  build.run Program.empty

/-- The function calls itself. -/
def callsItself : BlockId × Program Float Nat :=
  defining fun f _ => return .expr (← Build.apply f [])

/-- The function is defined in itself. -/
def definesItself : BlockId × Program Float Nat :=
  defining fun _ definition => return definition

theorem conditional_built : (conditional.run .empty).2.Built := by
  have h : (.empty : Program Float Nat).Built := .refl
  have h := h.tail (.literal (.bool false))
  have h := h.tail (.func "f" (List.forall_mem_nil _))
  have h := h.tail .block
  have h := h.tail (.appendBody (f := ⟨0⟩) (s := .ifThen ⟨0⟩ ⟨1⟩) (by decide) (by decide) rfl)
  exact h.tail (.sealFunc (f := ⟨0⟩) (by decide) rfl)

theorem callsItself_built : callsItself.2.Built := by
  have h := conditional_built.tail
    (.invoke (by decide : Program.HasCallee _ (.callable ⟨0⟩)) (List.forall_mem_nil _))
  have h := h.tail (.append (b := ⟨1⟩) (s := .expr ⟨1⟩) (by decide) (by decide) rfl)
  have h := h.tail .block
  exact h.tail (.append (b := ⟨2⟩) (s := .funcDef ⟨0⟩) (by decide) (by decide) rfl)

theorem definesItself_built : definesItself.2.Built := by
  have h := conditional_built.tail
    (.append (b := ⟨1⟩) (s := .funcDef ⟨0⟩) (by decide) (by decide) rfl)
  have h := h.tail .block
  exact h.tail (.append (b := ⟨2⟩) (s := .funcDef ⟨0⟩) (by decide) (by decide) rfl)

/-- A function that calls itself in its body verifies and prints; it is not defined there. -/
theorem verified_print_iff_callsItself :
    callsItself.2.Built ∧ callsItself.2.verify callsItself.1 = .ok () ∧
      (∃ text, callsItself.2.print callsItself.1 = .ok text) ∧
      ∀ b f, ReflTransGen callsItself.2.Nests callsItself.1 b → callsItself.2.Defines b f →
        ¬ callsItself.2.DefinedInItself f := by
  have hv : callsItself.2.verify callsItself.1 = .ok () := rfl
  have hprint : ∃ text, callsItself.2.print callsItself.1 = .ok text := ⟨_, rfl⟩
  exact ⟨callsItself_built, hv, hprint, (verified_print_iff callsItself_built hv).1 hprint⟩

/-- **A function that is defined inside its own body verifies and does not print.** -/
theorem verified_and_unprinted :
    definesItself.2.Built ∧ definesItself.2.verify definesItself.1 = .ok () ∧
      definesItself.2.print definesItself.1 = .error (.cycle ⟨0⟩) :=
  ⟨definesItself_built, rfl, rfl⟩

end StagedGraph
