import Mathlib.Data.List.Basic
import StagedGraph.Proofs.Printing

/-!
# Visits in a row

A printer is used for many blocks, one after another, and some of them may have no text. A visit may
fail at any depth, inside any blocks and after any text, but it starts with depth, path and error reset
and leaves none of them behind (`visit_of_writes`). What is left of a visit is its text. What a visit
adds does not depend on what was printed before (`printBlock_definite`), and what was added before a
failure is taken back, as the byte at which the visit started is the end of a character
(`Emitter.rewind_emit`). So there are two kinds of blocks: those that every printer of one width prints,
with one text, and those that add nothing to any printer (`visit_cases`).

From this, by induction on the visits, a printer that has made them all holds the texts of the
blocks that have one, in order, and each visit ended as it would have ended alone
(`visits_compose`).
-/

namespace StagedGraph

variable {R H : Type}

namespace Printer

/-- The text that a new printer of this width holds after it has printed a block, if it prints it. -/
def textOf? (p : Program R H) (width : Nat) (b : BlockId) : Option String :=
  match (new width).visit p b with
  | (.ok (), pr) => some pr.out.text
  | (.error _, _) => none

/-- Visits blocks one after another: how each visit ended, and the printer after all of them. -/
def visitAll (p : Program R H) (pr : Printer) : List BlockId → List (Except PrintError Unit) × Printer
  | [] => ([], pr)
  | b :: bs =>
    let (r, pr) := pr.visit p b
    let (rs, pr) := visitAll p pr bs
    (r :: rs, pr)

variable {p : Program R H} {width : Nat} {b : BlockId} {pr : Printer}

/-- **A block is printed by every printer of one width, with the same text, or by none.** A printer that
prints it has the text after that, and one that does not has what it had; and whatever was in the printer
before of a walk is gone. -/
theorem visit_cases (p : Program R H) (width : Nat) (b : BlockId) :
    (∃ s, textOf? p width b = some s ∧ ∀ pr : Printer, pr.width = width →
        pr.visit p b = (.ok (), idle width (pr.out.emit s))) ∨
      ∃ e, textOf? p width b = none ∧ ∀ pr : Printer, pr.width = width →
        pr.visit p b = (.error e, idle width pr.out) := by
  obtain ⟨r, s, hwrites⟩ := printBlock_definite p width (p.blocks.size + 1) [] 0 b
  cases r with
  | ok u =>
    have hvisit (pr : Printer) (hpr : pr.width = width) :
        pr.visit p b = (.ok (), idle width (pr.out.emit s)) := by
      subst hpr
      exact visit_of_writes hwrites
    refine .inl ⟨s, ?_, hvisit⟩
    rw [textOf?, hvisit (new width) rfl]
    simp [new, idle, Emitter.emit, Emitter.empty]
  | error e =>
    have hvisit (pr : Printer) (hpr : pr.width = width) :
        pr.visit p b = (.error e, idle width pr.out) := by
      subst hpr
      exact visit_of_writes hwrites
    refine .inr ⟨e, ?_, hvisit⟩
    rw [textOf?, hvisit (new width) rfl]

/-- A visit ends as with a new printer, whatever is in the printer. -/
theorem visit_fst (p : Program R H) (pr : Printer) (b : BlockId) :
    (pr.visit p b).1 = ((new pr.width).visit p b).1 := by
  rcases visit_cases p pr.width b with ⟨s, -, h⟩ | ⟨e, -, h⟩
  · rw [h pr rfl, h (new pr.width) rfl]
  · rw [h pr rfl, h (new pr.width) rfl]

/-- A visit adds the text of its block, if the block has one, and leaves nothing else. -/
theorem visit_snd (p : Program R H) (pr : Printer) (b : BlockId) :
    (pr.visit p b).2 = idle pr.width (pr.out.emit ((textOf? p pr.width b).getD "")) := by
  rcases visit_cases p pr.width b with ⟨s, htext, h⟩ | ⟨e, htext, h⟩
  · rw [h pr rfl, htext]
    rfl
  · rw [h pr rfl, htext]
    simp [Emitter.emit]

theorem textOf?_eq_none_iff : textOf? p width b = none ↔ ((new width).visit p b).1 ≠ .ok () := by
  rcases visit_cases p width b with ⟨s, htext, h⟩ | ⟨e, htext, h⟩
  · simp [htext, h (new width) rfl]
  · simp [htext, h (new width) rfl]

/-- Visits in a row end as they end alone, and add the texts of the blocks that have one. -/
theorem visitAll_eq (p : Program R H) (width : Nat) (out : Emitter) (bs : List BlockId) :
    visitAll p (idle width out) bs = (bs.map fun b => ((new width).visit p b).1,
      idle width (out.emit (String.join (bs.filterMap (textOf? p width))))) := by
  induction bs generalizing out with
  | nil => simp [visitAll, Emitter.emit]
  | cons b bs ih =>
    have hvisit : (idle width out).visit p b =
        (((idle width out).visit p b).1, ((idle width out).visit p b).2) := rfl
    rw [visitAll, hvisit, visit_fst, visit_snd]
    dsimp only [idle] at ih ⊢
    rw [ih]
    cases htext : textOf? p width b with
    | none => simp [htext, Emitter.emit]
    | some s => simp [htext, Emitter.emit, String.append_assoc]

end Printer

/-- **Printing is atomic and compositional.** A printer of any width visits any blocks of a program,
one after another. Each visit ends as it does with a new printer of that width. After all of them the
printer holds the texts that new printers have of the blocks that they print, one after another in
the order of the visits. Whenever a visit fails, wherever it failed, the printer is the one that
it was before the visit. And if a walk is cut off anywhere, so that any depth, path and error are left
in a printer, a visit ends as with a new one, adds what it adds to a new one, and leaves none of them. -/
theorem visits_compose (p : Program R H) (width : Nat) (bs : List BlockId) :
    (Printer.visitAll p (.new width) bs).1 = bs.map (fun b => ((Printer.new width).visit p b).1) ∧
      (Printer.visitAll p (.new width) bs).2.out.text =
        String.join (bs.filterMap (Printer.textOf? p width)) ∧
      (∀ b e, ((Printer.visitAll p (.new width) bs).2.visit p b).1 = .error e →
        ((Printer.visitAll p (.new width) bs).2.visit p b).2 =
          (Printer.visitAll p (.new width) bs).2) ∧
      ∀ out depth path error b,
        (Printer.visit ⟨width, out, depth, path, error⟩ p b).1 = ((Printer.new width).visit p b).1 ∧
          (Printer.visit ⟨width, out, depth, path, error⟩ p b).2 =
            ⟨width, out.emit ((Printer.textOf? p width b).getD ""), 0, [], none⟩ := by
  rw [Printer.new, Printer.visitAll_eq]
  refine ⟨rfl, ?_, fun b e h => ?_, fun out depth path error b => ⟨?_, ?_⟩⟩
  · simp [Printer.idle, Emitter.emit, Emitter.empty]
  · rw [Printer.visit_fst] at h
    have halone : ((Printer.new width).visit p b).1 = .error e := h
    have htext : Printer.textOf? p width b = none := by
      rw [Printer.textOf?_eq_none_iff, halone]
      simp
    rw [Printer.visit_snd]
    dsimp only [Printer.idle]
    rw [htext]
    simp [Emitter.emit]
  · exact Printer.visit_fst p _ b
  · exact Printer.visit_snd p _ b

/-- Two blocks that assign to a variable with a name of two bytes; the second is nested in itself
after that. -/
def assignsTwice : (BlockId × BlockId) × Program Float Nat :=
  let build : Build Float Nat (BlockId × BlockId) := do
    let x ← Build.var "ä"
    let one ← Build.literal (.int 1)
    let plain ← Build.block
    Build.push plain (.assign x.name one)
    let cyclic ← Build.block
    Build.push cyclic (.assign x.name one)
    Build.push cyclic (.ifThen one cyclic)
    return (plain, cyclic)
  build.run Program.empty

/-- The second block is visited between two visits of the first. What the failing visit wrote before it
failed is taken back, and so it is once more. -/
theorem visits_compose_assignsTwice :
    let (plain, cyclic) := assignsTwice.1
    let (ends, pr) := Printer.visitAll assignsTwice.2 (.new 1) [plain, cyclic, plain]
    ends = [.ok (), .error (.cycle cyclic), .ok ()] ∧
      pr.out.text =
        "BasicBlock\n Assign ä\n  Literal <opaque>\nBasicBlock\n Assign ä\n  Literal <opaque>\n" ∧
      (pr.visit assignsTwice.2 cyclic).1 = .error (.cycle cyclic) ∧
      (pr.visit assignsTwice.2 cyclic).2 = pr := by
  have hfails : ((Printer.visitAll assignsTwice.2 (.new 1) [assignsTwice.1.1, assignsTwice.1.2,
      assignsTwice.1.1]).2.visit assignsTwice.2 assignsTwice.1.2).1 =
        .error (.cycle assignsTwice.1.2) := by decide +kernel
  obtain ⟨-, -, hsame, -⟩ := visits_compose assignsTwice.2 1
    [assignsTwice.1.1, assignsTwice.1.2, assignsTwice.1.1]
  exact ⟨by decide +kernel, by decide +kernel, hfails, hsame _ _ hfails⟩

end StagedGraph
