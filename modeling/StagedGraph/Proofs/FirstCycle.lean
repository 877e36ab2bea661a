import Mathlib.Data.List.Lex
import StagedGraph.Proofs.Printing
import StagedGraph.Proofs.SelfDefinition

/-!
# Which cycle a printer reports

A walk through a block goes through the blocks that stand inside it, from left to right and
into each before the next. A place on the walk is an address: a list of numbers, which say at
each block which of the blocks inside it is entered next. The walk comes to addresses in
lexicographic order, as an address comes before those that it begins. `Program.trail` lists
the blocks on the way to an address, and `Program.ComesBack` says that the last of them is
on the way before.

A printer always ends. It prints a block unless some block there is nested in itself, and if
it fails then it reports the first block that the walk comes back to, whatever the width of
its lines and whatever it printed before (`visit_ends`).

What a printer writes has no part in this. `Program.walkThrough` is how a printer ends,
without its text, and is followed along the addresses of the walk.
-/

namespace StagedGraph

open Relation

variable {R H α β : Type}

namespace Program

/-! ### Addresses -/

/-- The blocks on the way from a block to an address, both ends included, if there is one. -/
def trail (p : Program R H) : BlockId → List Nat → Option (List BlockId)
  | b, [] => some [b]
  | b, i :: address => do
    let c ← (p.nested b)[i]?
    let blocks ← p.trail c address
    return b :: blocks

/-- The block at this address is on the way to it. -/
def ComesBack (p : Program R H) (root : BlockId) (address : List Nat) (b : BlockId) : Prop :=
  ∃ before, p.trail root address = some (before ++ [b]) ∧ b ∈ before

/-- The walk from the root comes back to this block before it comes back to any other. -/
def ComesBackFirst (p : Program R H) (root b : BlockId) : Prop :=
  ∃ address, p.ComesBack root address b ∧
    ∀ earlier, List.Lex (· < ·) earlier address → ∀ c, ¬ p.ComesBack root earlier c

/-- The block at this address is on the way to it, or on a path that leads to where the way
starts. -/
def ComesBackUnder (p : Program R H) (path : List BlockId) (b : BlockId) (address : List Nat)
    (c : BlockId) : Prop :=
  ∃ before, p.trail b address = some (before ++ [c]) ∧ (c ∈ path ∨ c ∈ before)

variable {p : Program R H} {path : List BlockId} {root b c : BlockId} {i : Nat}
  {address : List Nat}

/-- A trail starts at its block. -/
theorem head?_trail {blocks : List BlockId} (h : p.trail b address = some blocks) :
    blocks.head? = some b := by
  cases address with
  | nil => cases h; rfl
  | cons i address =>
    obtain ⟨d, -, h⟩ := Option.bind_eq_some_iff.1 h
    obtain ⟨blocks, -, h⟩ := Option.bind_eq_some_iff.1 h
    cases h
    rfl

theorem comesBackUnder_nil : p.ComesBackUnder [] root address b ↔ p.ComesBack root address b := by
  simp [ComesBackUnder, ComesBack]

theorem comesBackUnder_start : p.ComesBackUnder path b [] c ↔ b = c ∧ b ∈ path := by
  rw [ComesBackUnder, trail]
  constructor
  · rintro ⟨before, htrail, hmem⟩
    cases before with
    | nil =>
      obtain rfl : b = c := by simpa using htrail
      exact ⟨rfl, by simpa using hmem⟩
    | cons a before => simp at htrail
  · rintro ⟨rfl, hb⟩
    exact ⟨[], rfl, .inl hb⟩

/-- One step down, the block is on the path. -/
theorem comesBackUnder_cons : p.ComesBackUnder path b (i :: address) c ↔
    ∃ d, (p.nested b)[i]? = some d ∧ p.ComesBackUnder (b :: path) d address c := by
  simp only [ComesBackUnder, trail]
  constructor
  · rintro ⟨before, htrail, hmem⟩
    obtain ⟨d, hd, htrail⟩ := Option.bind_eq_some_iff.1 htrail
    obtain ⟨blocks, hblocks, htrail⟩ := Option.bind_eq_some_iff.1 htrail
    have hhead := head?_trail hblocks
    cases before with
    | nil =>
      obtain rfl : blocks = [] := (List.cons.inj (Option.some.inj htrail)).2
      cases hhead
    | cons a before =>
      obtain ⟨rfl, rfl⟩ := List.cons.inj (Option.some.inj htrail)
      refine ⟨d, hd, before, hblocks, ?_⟩
      simp only [List.mem_cons] at hmem ⊢
      tauto
  · rintro ⟨d, hd, before, htrail, hmem⟩
    refine ⟨b :: before, ?_, ?_⟩
    · simp [hd, htrail]
    · simp only [List.mem_cons] at hmem ⊢
      tauto

/-! ### Walking through -/

/-- How a walk ends that stops at the first block which is on its path already. -/
def walkThrough (p : Program R H) : Nat → List BlockId → BlockId → Except PrintError Unit
  | 0, _, _ => .error .tooDeep
  | fuel + 1, path, b =>
    if b ∈ path then .error (.cycle b)
    else (p.nested b).forM (p.walkThrough fuel (b :: path))

/-- What the end of a walk says of the addresses under a path. -/
def Tells (p : Program R H) (path : List BlockId) (b : BlockId) : Except PrintError Unit → Prop
  | .ok () => ∀ address c, ¬ p.ComesBackUnder path b address c
  | .error (.cycle c) => ∃ address, p.ComesBackUnder path b address c ∧
      ∀ earlier, List.Lex (· < ·) earlier address → ∀ d, ¬ p.ComesBackUnder path b earlier d
  | .error .tooDeep => False

/-- Steps in a row end well if all of them do; else they end as the first does that fails. -/
theorem forM_cases (f : α → Except PrintError Unit) (as : List α) :
    (as.forM f = .ok () ∧ ∀ a ∈ as, f a = .ok ()) ∨
      ∃ (i : Nat) (a : α) (e : PrintError), as[i]? = some a ∧ f a = .error e ∧
        as.forM f = .error e ∧ ∀ j < i, ∀ b, as[j]? = some b → f b = .ok () := by
  induction as with
  | nil => exact .inl ⟨rfl, nofun⟩
  | cons a as ih =>
    have hcons : (a :: as).forM f = (f a >>= fun _ => as.forM f) := rfl
    rw [hcons]
    rcases ha : f a with e | u
    · exact .inr ⟨0, a, e, rfl, ha, rfl, fun j hj => absurd hj (Nat.not_lt_zero j)⟩
    · rcases ih with ⟨hok, hall⟩ | ⟨i, b, e, hb, hfb, herror, hbefore⟩
      · exact .inl ⟨hok, List.forall_mem_cons.2 ⟨ha, hall⟩⟩
      · refine .inr ⟨i + 1, b, e, hb, hfb, herror, fun j hj c hc => ?_⟩
        cases j with
        | zero =>
          cases hc
          exact ha
        | succ j => exact hbefore j (by omega) c hc

/-- A walk through the blocks inside a block tells of the block what it tells of them. -/
theorem tells_forM {f : BlockId → Except PrintError Unit} (hb : b ∉ path)
    (hf : ∀ c ∈ p.nested b, p.Tells (b :: path) c (f c)) :
    p.Tells path b ((p.nested b).forM f) := by
  have hstart (c : BlockId) : ¬ p.ComesBackUnder path b [] c := fun h =>
    hb (comesBackUnder_start.1 h).2
  rcases forM_cases f (p.nested b) with ⟨hok, hall⟩ | ⟨i, c, e, hc, hfc, herror, hbefore⟩
  · rw [hok]
    intro address c h
    cases address with
    | nil => exact hstart c h
    | cons i address =>
      obtain ⟨d, hd, h⟩ := comesBackUnder_cons.1 h
      have hmem := List.mem_of_getElem? hd
      have htells := hf d hmem
      rw [hall d hmem] at htells
      exact htells address c h
  · rw [herror]
    have htells := hf c (List.mem_of_getElem? hc)
    rw [hfc] at htells
    cases e with
    | tooDeep => exact htells
    | cycle a =>
      obtain ⟨address, hcomes, hleast⟩ := htells
      refine ⟨i :: address, comesBackUnder_cons.2 ⟨c, hc, hcomes⟩, fun earlier hlex d h => ?_⟩
      cases earlier with
      | nil => exact hstart d h
      | cons j earlier =>
        obtain ⟨k, hk, h⟩ := comesBackUnder_cons.1 h
        cases hlex with
        | rel hlt =>
          -- the blocks before the one that fails are walked through to their ends
          have hpassed := hf k (List.mem_of_getElem? hk)
          rw [hbefore j hlt k hk] at hpassed
          exact hpassed earlier d h
        | cons hlex =>
          cases hc.symm.trans hk
          exact hleast earlier hlex d h

/-- **A walk ends, and tells of the first block that it comes back to**, by induction on the depth
that is left. The path has no block twice, so that it does not get longer than the program has
blocks. -/
theorem tells_walkThrough {fuel : Nat} (hnodup : path.Nodup)
    (hsize : ∀ a ∈ path, a.index < p.blocks.size) (hfuel : p.blocks.size < path.length + fuel) :
    p.Tells path b (p.walkThrough fuel path b) := by
  induction fuel generalizing path b with
  | zero => exact absurd (Printer.length_le_size hnodup hsize) (by omega)
  | succ fuel ih =>
    rw [walkThrough]
    split
    · next hb =>
      exact ⟨[], comesBackUnder_start.2 ⟨rfl, hb⟩, nofun⟩
    · next hb =>
      refine tells_forM hb fun c hc => ih (List.nodup_cons.2 ⟨hb, hnodup⟩) ?_ ?_
      · exact List.forall_mem_cons.2 ⟨Nests.lt_size (p := p) (c := c) hc, hsize⟩
      · rw [List.length_cons]
        omega

/-- A walk from a root ends with the block that it comes back to first. -/
theorem cycle_iff_comesBackFirst {r : Except PrintError Unit} (h : p.Tells [] root r) :
    r = .error (.cycle b) ↔ p.ComesBackFirst root b := by
  constructor
  · rintro rfl
    obtain ⟨address, hcomes, hfirst⟩ := h
    exact ⟨address, comesBackUnder_nil.1 hcomes, fun earlier hlex c hc =>
      hfirst earlier hlex c (comesBackUnder_nil.2 hc)⟩
  · rintro ⟨address, hcomes, hfirst⟩
    have hunder := comesBackUnder_nil.2 hcomes
    match r with
    | .ok () => exact absurd hunder (h address b)
    | .error .tooDeep => exact h.elim
    | .error (.cycle c) =>
      obtain ⟨other, hother, hleast⟩ := h
      obtain rfl : address = other := by
        refine Std.Trichotomous.trichotomous (r := List.Lex (· < ·)) address other ?_ ?_
        · exact fun hlex => hleast address hlex b hunder
        · exact fun hlex => hfirst other hlex c (comesBackUnder_nil.1 hother)
      obtain ⟨before, htrail, -⟩ := hunder
      obtain ⟨before', htrail', -⟩ := hother
      have hblocks := Option.some.inj (htrail'.symm.trans htrail)
      rw [(List.singleton_inj.1 (List.append_inj' hblocks rfl).2)]

end Program

/-! ### How a printer ends -/

namespace Print

variable {x y : Print} {r r' : Except PrintError Unit}

/-- The step ends with this result, whatever was printed before. -/
def Ends (x : Print) (r : Except PrintError Unit) : Prop := ∃ s, Writes x r s

theorem Ends.bind (hx : Ends x r) (hy : Ends y r') :
    Ends (x >>= fun _ => y) (r >>= fun _ => r') := by
  obtain ⟨s, hx⟩ := hx
  obtain ⟨t, hy⟩ := hy
  rcases r with e | u
  · exact ⟨s, hx.bind_error⟩
  · exact ⟨s ++ t, hx.bind hy⟩

theorem Ends.forM {as : List α} {f : α → Print} {g : α → Except PrintError Unit}
    (h : ∀ a ∈ as, Ends (f a) (g a)) : Ends (as.forM f) (as.forM g) := by
  induction as with
  | nil => exact ⟨_, .done⟩
  | cons a as ih =>
    exact (h a List.mem_cons_self).bind (ih fun b hb => h b (List.mem_cons_of_mem a hb))

end Print

namespace Printer

open Print

variable {p : Program R H} {width fuel depth : Nat} {path : List BlockId} {b : BlockId}

/-- A statement ends as the blocks inside it do. -/
theorem printStmt_ends {expr : Nat → ExprId → Print} {block : Nat → BlockId → Print}
    {g : BlockId → Except PrintError Unit} (hexpr : ∀ d e, Succeeds (expr d e))
    (hblock : ∀ d c, Ends (block d c) (g c)) (s : Stmt) :
    Ends (printStmt p width depth expr block s) ((s.nested p).forM g) := by
  have hline (d : Nat) (text : String) : Ends (line width d text) (.ok ()) := line_succeeds ..
  have hsingle (c : BlockId) : [c].forM g = g c := by
    change (g c >>= fun _ => pure ()) = g c
    cases g c <;> rfl
  have hguarded (kind heading : String) (cond : ExprId) (c : BlockId) :
      Ends (printGuarded width depth expr block kind heading cond c) (g c) :=
    (hline _ _).bind ((hline _ _).bind (Ends.bind (hexpr _ _) ((hline _ _).bind (hblock _ _))))
  cases s with
  | expr e => exact (hline _ _).bind (hexpr _ _)
  | assign x e => exact (hline _ _).bind (hexpr _ _)
  | ifThen cond c => exact hsingle c ▸ hguarded _ _ cond c
  | whileLoop cond c => exact hsingle c ▸ hguarded _ _ cond c
  | breakLoop => exact hline _ _
  | returnValue e =>
    cases e with
    | none => exact hline _ _
    | some e => exact (hline _ _).bind (hexpr _ _)
  | funcDef f => exact hsingle (p.func f).body ▸ (hline _ _).bind (hblock _ _)

/-- Blocks inside blocks, one after another. -/
theorem forM_flatMap {as : List α} {f : α → List β} {g : β → Except PrintError Unit} :
    (as.flatMap f).forM g = as.forM fun a => (f a).forM g := by
  induction as with
  | nil => rfl
  | cons a as ih =>
    rw [List.flatMap_cons, List.forM_eq_forM, List.forM_append, ← List.forM_eq_forM, ih]
    rfl

/-- **A block is printed as it is walked through.** -/
theorem printBlock_ends (hp : p.Layered) (fuel : Nat) (path : List BlockId) (depth : Nat)
    (b : BlockId) : Ends (printBlock p width fuel path depth b) (p.walkThrough fuel path b) := by
  induction fuel generalizing path depth b with
  | zero => exact ⟨_, .throw _⟩
  | succ fuel ih =>
    rw [printBlock, Program.walkThrough]
    split
    · exact ⟨_, .throw _⟩
    · have hexpr (d : Nat) (e : ExprId) : Succeeds (printExpr p width (p.exprs.size + 1) d e) :=
        printExpr_succeeds hp (by omega) d
      rw [Program.nested, forM_flatMap]
      exact Ends.bind (line_succeeds ..) (.forM fun s _ => printStmt_ends hexpr (ih _) s)

/-- A visit ends as the walk from its block does. -/
theorem visit_eq (hp : p.Layered) (pr : Printer) (b : BlockId) :
    (pr.visit p b).1 = p.walkThrough (p.blocks.size + 1) [] b := by
  obtain ⟨s, hs⟩ : Ends (printBlock p pr.width (p.blocks.size + 1) [] 0 b)
      (p.walkThrough (p.blocks.size + 1) [] b) := printBlock_ends hp _ [] 0 b
  rw [visit_of_writes hs]

end Printer

/-- **A printer ends, and finds exactly the cycles.** In a program that was built, a printer of
any width that has printed anything either prints a block or says that there is a cycle. It prints
the block exactly if no block at it or inside it is nested in itself. It names a block exactly if
this is the first that a walk from the root comes back to. To print a block alone is to visit it
with a new printer. -/
theorem visit_ends {p : Program R H} (hp : p.Built) (pr : Printer) (root : BlockId) :
    ((pr.visit p root).1 = .ok () ∨ ∃ b, (pr.visit p root).1 = .error (.cycle b)) ∧
      ((pr.visit p root).1 = .ok () ↔
        ∀ b, ReflTransGen p.Nests root b → ¬ p.NestedInItself b) ∧
      (∀ b, (pr.visit p root).1 = .error (.cycle b) ↔ p.ComesBackFirst root b) ∧
      ((p.print root).map fun _ => ()) = (pr.visit p root).1 := by
  have htells : p.Tells [] root (pr.visit p root).1 := by
    rw [Printer.visit_eq hp.layered]
    exact Program.tells_walkThrough .nil nofun (by rw [List.length_nil]; omega)
  refine ⟨?_, Printer.visit_succeeds_iff hp.layered pr,
    fun b => Program.cycle_iff_comesBackFirst htells, ?_⟩
  · rcases hr : (pr.visit p root).1 with e | u
    · cases e with
      | cycle b => exact .inr ⟨b, rfl⟩
      | tooDeep =>
        rw [hr] at htells
        exact htells.elim
    · exact .inl rfl
  · rw [Printer.visit_eq hp.layered,
      ← Printer.visit_eq hp.layered (.new Printer.defaultWidth), Program.print]
    rcases (Printer.new Printer.defaultWidth).visit p root with ⟨_ | _, _⟩ <;> rfl

/-- Three spaces a level, a function that is defined inside its own body is a cycle, and the walk
comes back to the body first; a function that calls itself is none. -/
theorem visit_ends_definesItself :
    definesItself.2.Built ∧ callsItself.2.Built ∧
      ((Printer.new 3).visit definesItself.2 definesItself.1).1 = .error (.cycle ⟨0⟩) ∧
      definesItself.2.ComesBackFirst definesItself.1 ⟨0⟩ ∧
      ((Printer.new 3).visit callsItself.2 callsItself.1).1 = .ok () ∧
      ∀ b, ReflTransGen callsItself.2.Nests callsItself.1 b → ¬ callsItself.2.NestedInItself b := by
  have hcycle : ((Printer.new 3).visit definesItself.2 definesItself.1).1 =
      .error (.cycle ⟨0⟩) := rfl
  have hok : ((Printer.new 3).visit callsItself.2 callsItself.1).1 = .ok () := rfl
  obtain ⟨-, -, hfirst, -⟩ := visit_ends definesItself_built (.new 3) definesItself.1
  obtain ⟨-, hnone, -, -⟩ := visit_ends callsItself_built (.new 3) callsItself.1
  exact ⟨definesItself_built, callsItself_built, hcycle, (hfirst ⟨0⟩).1 hcycle, hok, hnone.1 hok⟩

end StagedGraph
