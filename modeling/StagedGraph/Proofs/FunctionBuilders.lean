import StagedGraph.Proofs.BuilderHistory

/-!
# The builders of functions

Statements get into the body of a function through the builder of the function, which is given away
when the function is sealed. In a history that keeps to this (`Command.SealsLast`) no command appends
to a function or seals it after it was sealed. The refusal `alreadySealed` is what a command is told
that does so all the same, and it tells the two kinds of histories apart: a legal history keeps to
this exactly if none of its commands is refused that way (`alreadySealed_not_mem_replies_iff`).

The proof goes through the commands one by one: a function is sealed exactly if it was or if the
command seals it (`isSealed_perform`), and a command is refused for a seal exactly if the function
whose builder it uses is sealed (`perform_eq_alreadySealed_iff`).
-/

namespace StagedGraph

variable {R H : Type}

namespace Command

/-- The function whose builder the command uses. -/
def builder? : Command R H → Option FuncId
  | appendBody f _ => some f
  | sealFunc f => some f
  | _ => none

/-- The function whose builder the command gives away. -/
def seals? : Command R H → Option FuncId
  | sealFunc f => some f
  | _ => none

/-- No command uses the builder of a function that an earlier one sealed. -/
def SealsLast (ks : List (Command R H)) : Prop :=
  ks.Pairwise fun k l => ∀ f ∈ k.seals?, l.builder? ≠ some f

instance (ks : List (Command R H)) : Decidable (SealsLast ks) :=
  inferInstanceAs (Decidable (ks.Pairwise _))

theorem sealsLast_cons {k : Command R H} {ks : List (Command R H)} :
    SealsLast (k :: ks) ↔
      (∀ l ∈ ks, ∀ f ∈ k.seals?, l.builder? ≠ some f) ∧ SealsLast ks :=
  List.pairwise_cons

end Command

namespace Program

variable {p q : Program R H} {f g : FuncId}

/-- Only the table of functions decides what is sealed. -/
theorem isSealed_congr (h : q.funcs = p.funcs) (f : FuncId) :
    (q.func f).isSealed = (p.func f).isSealed := by
  simp only [func, h, Array.getD_eq_getD_getElem?]
  cases p.funcs[f.index]? <;> rfl

/-- A new function is not sealed. -/
theorem isSealed_addFunc (name : String) (params : List Name) (f : FuncId) :
    ((p.addFunc name params).2.func f).isSealed = (p.func f).isSealed := by
  simp only [func, funcs_addFunc, Array.getD_eq_getD_getElem?, Array.getElem?_push]
  split
  · next hf =>
    rw [hf, Array.getElem?_size]
    rfl
  · cases p.funcs[f.index]? <;> rfl

theorem isSealed_markSealed (hg : p.HasFunc g) (f : FuncId) :
    ((p.markSealed g).func f).isSealed = true ↔ (p.func f).isSealed = true ∨ f = g := by
  by_cases hf : p.HasFunc f
  · rw [func_markSealed hf, Bool.or_eq_true_iff, decide_eq_true_iff, or_comm]
  · have hne : f ≠ g := fun h => hf (h ▸ hg)
    have hindex : g.index ≠ f.index := fun h => hne (by cases f; cases g; cases h; rfl)
    simp only [func, markSealed, Array.getD_eq_getD_getElem?, Array.getElem?_modify, if_neg hindex,
      or_iff_left hne]

/-- **A function is sealed if it was or if the command seals it, and only then.** -/
theorem isSealed_perform {k : Command R H} (h : k.Legal p) (f : FuncId) :
    ((p.perform k).2.func f).isSealed = true ↔ (p.func f).isSealed = true ∨ f ∈ k.seals? := by
  have hsame {q : Program R H} (hq : q.funcs = p.funcs) :
      (q.func f).isSealed = true ↔ (p.func f).isSealed = true ∨ f ∈ (none : Option FuncId) := by
    rw [isSealed_congr hq]
    exact (or_iff_left (Option.not_mem_none f)).symm
  cases k with
  | intern | literal | var | neg | invoke | native | block | increment => exact hsame rfl
  | func name params =>
    change ((p.addFunc name params).2.func f).isSealed = true ↔ _
    rw [isSealed_addFunc]
    exact hsame rfl
  | append b s =>
    rw [perform_append]
    split <;> exact hsame rfl
  | appendBody g s =>
    rw [perform_appendBody]
    split <;> exact hsame rfl
  | sealFunc g =>
    have hmem : f ∈ (Command.sealFunc g : Command R H).seals? ↔ f = g :=
      Option.some_inj.trans eq_comm
    rw [perform_sealFunc, hmem]
    split
    · next hg =>
      refine ⟨.inl, fun hf => hf.elim id ?_⟩
      rintro rfl
      exact hg
    · exact isSealed_markSealed h f

/-- **A command is refused for the seal of a function if it uses the builder of that function.** -/
theorem perform_eq_alreadySealed_iff (p : Program R H) (k : Command R H) :
    (p.perform k).1 = .refused .alreadySealed ↔
      ∃ f, k.builder? = some f ∧ (p.func f).isSealed = true := by
  cases k with
  | intern | literal | var | neg | invoke | native | block | func | increment =>
    simp [perform, Command.builder?]
  | append b s =>
    rw [perform_append]
    split <;> simp [Command.builder?]
  | appendBody f s =>
    rw [perform_appendBody]
    split <;> simp_all [Command.builder?]
  | sealFunc f =>
    rw [perform_sealFunc]
    split <;> simp_all [Command.builder?]

/-- From any program on: nor is a builder used that was given away before. -/
theorem alreadySealed_not_mem_replies {ks : List (Command R H)} (h : Command.AllLegal p ks) :
    .refused .alreadySealed ∉ p.replies ks ↔
      (∀ f, (p.func f).isSealed = true → ∀ k ∈ ks, k.builder? ≠ some f) ∧ Command.SealsLast ks := by
  induction ks generalizing p with
  | nil =>
    exact iff_of_true List.not_mem_nil ⟨fun _ _ => List.forall_mem_nil _, .nil⟩
  | cons k ks ih =>
    rw [replies, List.mem_cons, not_or, eq_comm, perform_eq_alreadySealed_iff, ih h.2,
      Command.sealsLast_cons]
    simp only [isSealed_perform h.1, List.forall_mem_cons]
    constructor
    · rintro ⟨hk, hks, hlast⟩
      refine ⟨fun f hf => ⟨fun hb => hk ⟨f, hb, hf⟩, hks f (.inl hf)⟩, fun l hl f hf => ?_, hlast⟩
      exact hks f (.inr hf) l hl
    · rintro ⟨hbefore, hk, hlast⟩
      refine ⟨fun ⟨f, hb, hf⟩ => (hbefore f hf).1 hb, fun f hf l hl => ?_, hlast⟩
      exact hf.elim (fun hf => (hbefore f hf).2 l hl) (hk l hl f)

/-- **Where every builder is given away by sealing its function, no command is refused for a seal**,
and in no other legal history. -/
theorem alreadySealed_not_mem_replies_iff {ks : List (Command R H)}
    (h : Command.AllLegal .empty ks) :
    .refused .alreadySealed ∉ (Program.empty : Program R H).replies ks ↔ Command.SealsLast ks := by
  rw [alreadySealed_not_mem_replies h]
  exact and_iff_right fun f hf => absurd hf Bool.false_ne_true

end Program

end StagedGraph
