import Mathlib.Data.List.Basic

/-!
# The lines of a dump

A dump is an outline: every line stands at a depth, and what is deeper than a line and follows it
belongs to it. Nothing of that is written down but spaces and line ends, and yet the text gives
the outline back, in four steps. A text is cut into lines at its line ends; a line is cut into
spaces and the rest, as what it shows never starts with a space; the rest says by its first
letters what it shows, as no such beginning starts another one (`LineKind.lead_prefixFree`); and
lines with their depths belong to one outline only (`Outline.lines_injective`).

That takes names without line ends, and in definitions without commas and parentheses
(`PlainName`). A list of parameters also needs names that are not empty: one empty parameter and
none at all would look the same.
-/

namespace StagedGraph

/-! ### Outlines -/

/-- Entries in order, each with the outline that stands under it. -/
inductive Outline (α : Type) where
  | nil
  | entry (a : α) (under next : Outline α)

namespace Outline

variable {α : Type} {d : Nat} {o o' : Outline α} {rest rest' : List (Nat × α)}

/-- Every entry satisfies `P`. -/
def All (P : α → Prop) : Outline α → Prop
  | nil => True
  | entry a under next => P a ∧ All P under ∧ All P next

/-- The entries from top to bottom, each with its depth; the outermost are at depth `d`. -/
def lines : Nat → Outline α → List (Nat × α)
  | _, nil => []
  | d, entry a under next => (d, a) :: (lines (d + 1) under ++ lines d next)

theorem All.of_mem_lines {P : α → Prop} (h : o.All P) {l : Nat × α} (hl : l ∈ lines d o) :
    P l.2 := by
  induction o generalizing d with
  | nil => cases hl
  | entry a under next ihu ihn =>
    obtain ⟨ha, hu, hn⟩ := h
    rcases List.mem_cons.1 hl with rfl | hl
    · exact ha
    · rcases List.mem_append.1 hl with hl | hl
      · exact ihu hu hl
      · exact ihn hn hl

/-- If there are lines, the first of them stands above depth `d`. -/
def Above (d : Nat) (rest : List (Nat × α)) : Prop := ∀ l ∈ rest.head?, l.1 < d

theorem Above.lines_append (h : Above d rest) (o : Outline α) :
    Above (d + 1) (lines d o ++ rest) := by
  cases o with
  | nil => exact fun l hl => Nat.lt_succ_of_lt (h l hl)
  | entry a under next =>
    intro l hl
    obtain rfl := Option.some.inj hl
    exact Nat.lt_succ_self d

/-- An outline ends where a line stands above it, so that it can be told from what follows it. -/
theorem lines_append_inj (h : Above d rest) (h' : Above d rest')
    (heq : lines d o ++ rest = lines d o' ++ rest') : o = o' ∧ rest = rest' := by
  induction o generalizing d o' rest rest' with
  | nil =>
    cases o' with
    | nil => exact ⟨rfl, heq⟩
    | entry a' under' next' =>
      subst heq
      exact absurd (h (d, a') rfl) (Nat.lt_irrefl d)
  | entry a under next ihu ihn =>
    cases o' with
    | nil =>
      subst heq
      exact absurd (h' (d, a) rfl) (Nat.lt_irrefl d)
    | entry a' under' next' =>
      simp only [lines, List.cons_append, List.append_assoc, List.cons.injEq, Prod.mk.injEq,
        true_and] at heq
      obtain ⟨rfl, hunder⟩ := heq
      obtain ⟨rfl, hnext⟩ := ihu (h.lines_append next) (h'.lines_append next') hunder
      obtain ⟨rfl, rfl⟩ := ihn h h' hnext
      exact ⟨rfl, rfl⟩

/-- **The lines of an outline determine it.** -/
theorem lines_injective (h : lines d o = lines d o') : o = o' := by
  have hends : Above d ([] : List (Nat × α)) := nofun
  exact (lines_append_inj hends hends (congrArg (· ++ []) h)).1

end Outline

/-! ### Names -/

/-- A name that is not empty and has no line end, comma or parenthesis. -/
structure PlainName (s : String) : Prop where
  ne_empty : s ≠ ""
  newline : '\n' ∉ s.toList
  comma : ',' ∉ s.toList
  opening : '(' ∉ s.toList
  closing : ')' ∉ s.toList

instance (s : String) : Decidable (PlainName s) :=
  decidable_of_iff
    (s ≠ "" ∧ '\n' ∉ s.toList ∧ ',' ∉ s.toList ∧ '(' ∉ s.toList ∧ ')' ∉ s.toList)
    ⟨fun ⟨h, hline, hcomma, hopen, hclose⟩ => ⟨h, hline, hcomma, hopen, hclose⟩,
      fun h => ⟨h.ne_empty, h.newline, h.comma, h.opening, h.closing⟩⟩

/-- A list is cut where an entry stands for the first time in one way only. -/
theorem cut_inj {α : Type} {a : α} {xs ys zs ws : List α} (hx : a ∉ xs) (hy : a ∉ ys)
    (h : xs ++ a :: zs = ys ++ a :: ws) : xs = ys ∧ zs = ws := by
  induction xs generalizing ys with
  | nil =>
    cases ys with
    | nil => exact ⟨rfl, (List.cons.inj h).2⟩
    | cons y ys => exact absurd ((List.cons.inj h).1 ▸ List.mem_cons_self) hy
  | cons x xs ih =>
    cases ys with
    | nil => exact absurd ((List.cons.inj h).1 ▸ List.mem_cons_self) hx
    | cons y ys =>
      obtain ⟨rfl, htail⟩ := List.cons.inj h
      obtain ⟨rfl, rfl⟩ :=
        ih (mt (List.mem_cons_of_mem x) hx) (mt (List.mem_cons_of_mem x) hy) htail
      exact ⟨rfl, rfl⟩

namespace PlainName

variable {s s' : String} {more more' names names' : List String}

/-- The characters of names that follow another one, each after a comma. -/
def after (more : List String) : List Char := more.flatMap fun t => ',' :: ' ' :: t.toList

theorem toList_intercalate_cons (s : String) (more : List String) :
    (String.intercalate ", " (s :: more)).toList = s.toList ++ after more := by
  rw [String.toList_intercalate]
  induction more generalizing s with
  | nil => simp [after]
  | cons t more ih =>
    rw [List.map_cons, List.map_cons, List.intercalate_cons_cons, ← List.map_cons, ih]
    simp [after]

/-- Names between commas can be told apart. -/
theorem after_inj (hs : PlainName s) (hs' : PlainName s') (hmore : ∀ t ∈ more, PlainName t)
    (hmore' : ∀ t ∈ more', PlainName t) (h : s.toList ++ after more = s'.toList ++ after more') :
    s = s' ∧ more = more' := by
  induction more generalizing s s' more' with
  | nil =>
    cases more' with
    | nil => exact ⟨String.toList_inj.1 (by simpa [after] using h), rfl⟩
    | cons t' more' =>
      refine absurd ?_ hs.comma
      rw [show s.toList = _ by simpa [after] using h]
      exact List.mem_append_right _ List.mem_cons_self
  | cons t more ih =>
    cases more' with
    | nil =>
      refine absurd ?_ hs'.comma
      rw [show s'.toList = _ by simpa [after] using h.symm]
      exact List.mem_append_right _ List.mem_cons_self
    | cons t' more' =>
      obtain ⟨ht, hmore⟩ := List.forall_mem_cons.1 hmore
      obtain ⟨ht', hmore'⟩ := List.forall_mem_cons.1 hmore'
      obtain ⟨hhead, htail⟩ := cut_inj hs.comma hs'.comma h
      obtain ⟨rfl, rfl⟩ := ih ht ht' hmore hmore' (List.cons.inj htail).2
      exact ⟨String.toList_inj.1 hhead, rfl⟩

/-- A list of names can be told from its text. -/
theorem intercalate_injective (h : ∀ t ∈ names, PlainName t) (h' : ∀ t ∈ names', PlainName t)
    (heq : String.intercalate ", " names = String.intercalate ", " names') : names = names' := by
  have hne {s : String} {more : List String} (hs : PlainName s) :
      String.intercalate ", " (s :: more) ≠ "" := by
    intro hempty
    have hlist := congrArg String.toList hempty
    rw [toList_intercalate_cons] at hlist
    exact hs.ne_empty (String.toList_inj.1 (List.append_eq_nil_iff.1 hlist).1)
  cases names with
  | nil =>
    cases names' with
    | nil => rfl
    | cons s' more' => exact absurd heq.symm (hne (h' s' List.mem_cons_self))
  | cons s more =>
    cases names' with
    | nil => exact absurd heq (hne (h s List.mem_cons_self))
    | cons s' more' =>
      obtain ⟨hs, hmore⟩ := List.forall_mem_cons.1 h
      obtain ⟨hs', hmore'⟩ := List.forall_mem_cons.1 h'
      have hlist := congrArg String.toList heq
      rw [toList_intercalate_cons, toList_intercalate_cons] at hlist
      obtain ⟨rfl, rfl⟩ := after_inj hs hs' hmore hmore' hlist
      rfl

theorem newline_intercalate (h : ∀ t ∈ names, PlainName t) :
    '\n' ∉ (String.intercalate ", " names).toList := by
  cases names with
  | nil => simp
  | cons s more =>
    obtain ⟨hs, hmore⟩ := List.forall_mem_cons.1 h
    rw [toList_intercalate_cons, List.mem_append]
    rintro (hc | hc)
    · exact hs.newline hc
    · obtain ⟨t, ht, hc⟩ := List.mem_flatMap.1 hc
      have hc : '\n' ∈ t.toList := by simpa using hc
      exact (hmore t ht).newline hc

end PlainName

/-! ### Lines -/

/-- What a line of a dump shows. -/
inductive LineKind where
  | literal
  | var
  | invoke
  | neg
  | block
  | expr
  | assign
  | ifThen
  | whileLoop
  | breakLoop
  | returned
  | funcDef
  | cond
  | thenBlock
  | body
deriving DecidableEq

namespace LineKind

/-- The letters that a line starts with. -/
def lead : LineKind → String
  | literal => "Literal <opaque>"
  | var => "Var "
  | invoke => "Invoke "
  | neg => "Neg"
  | block => "BasicBlock"
  | expr => "ExprStmt"
  | assign => "Assign "
  | ifThen => "If"
  | whileLoop => "While"
  | breakLoop => "Break"
  | returned => "Return"
  | funcDef => "FuncDef "
  | cond => "cond:"
  | thenBlock => "then:"
  | body => "body:"

/-- All kinds of lines. -/
def all : List LineKind :=
  [literal, var, invoke, neg, block, expr, assign, ifThen, whileLoop, breakLoop, returned, funcDef,
    cond, thenBlock, body]

theorem mem_all (k : LineKind) : k ∈ all := by cases k <;> decide

/-- No line starts like a line of another kind. -/
theorem lead_prefixFree : ∀ k ∈ all, ∀ k' ∈ all, k.lead.toList <+: k'.lead.toList → k = k' := by
  decide +kernel

/-- A line does not start with a space, and its first letters have no line end. -/
theorem lead_visible (k : LineKind) :
    (∃ c cs, k.lead.toList = c :: cs ∧ c ≠ ' ') ∧ '\n' ∉ k.lead.toList := by
  have h : ∀ k ∈ all, k.lead.toList ≠ [] ∧ k.lead.toList.head? ≠ some ' ' ∧
      '\n' ∉ k.lead.toList := by decide +kernel
  obtain ⟨hne, hspace, hline⟩ := h k k.mem_all
  obtain ⟨c, cs, hlead⟩ := List.exists_cons_of_ne_nil hne
  rw [hlead, List.head?_cons] at hspace
  exact ⟨⟨c, cs, hlead, fun hc => hspace (congrArg some hc)⟩, hline⟩

end LineKind

/-- A line of a dump: its kind, and the names that it shows. -/
inductive Line where
  | plain (k : LineKind)
  | named (k : LineKind) (name : String)
  | definition (name : String) (params : List String)

namespace Line

/-- The kind of a line. -/
def kind : Line → LineKind
  | plain k => k
  | named k _ => k
  | definition _ _ => .funcDef

/-- The names of a line. -/
def names : Line → List String
  | plain _ => []
  | named _ name => [name]
  | definition name params => name :: params

/-- What stands in a line after its first letters. -/
def detail : Line → String
  | plain _ => ""
  | named _ name => name
  | definition name params => name ++ "(" ++ String.intercalate ", " params ++ ")"

/-- The text of a line. -/
def text (l : Line) : String := l.kind.lead ++ l.detail

/-- All names of the line are plain. -/
def Plain (l : Line) : Prop := ∀ name ∈ l.names, PlainName name

variable {l l' : Line}

theorem toList_text (l : Line) : l.text.toList = l.kind.lead.toList ++ l.detail.toList :=
  String.toList_append

theorem text_plain (k : LineKind) : (plain k).text = k.lead := String.append_empty

/-- Lines with the same text are of one kind. -/
theorem kind_eq (h : l.text = l'.text) : l.kind = l'.kind := by
  have htext : l.kind.lead.toList ++ l.detail.toList = l'.kind.lead.toList ++ l'.detail.toList := by
    rw [← toList_text, ← toList_text, h]
  rcases List.prefix_or_prefix_of_prefix ⟨_, rfl⟩ ⟨_, htext.symm⟩ with hpre | hpre
  · exact LineKind.lead_prefixFree _ l.kind.mem_all _ l'.kind.mem_all hpre
  · exact (LineKind.lead_prefixFree _ l'.kind.mem_all _ l.kind.mem_all hpre).symm

theorem toList_detail_definition (name : String) (params : List String) :
    (definition name params).detail.toList =
      name.toList ++ '(' :: ((String.intercalate ", " params).toList ++ [')']) := by
  simp [detail, String.toList_append]

/-- A definition is the only line that has a parenthesis. -/
theorem Plain.parenthesis (h : l.Plain) (hl : ∀ name params, l ≠ definition name params) :
    '(' ∉ l.detail.toList := by
  cases l with
  | plain k => simp [detail]
  | named k name => exact (h name (List.mem_singleton_self name)).opening
  | definition name params => exact absurd rfl (hl name params)

/-- What stands after the first letters tells the names, if they are plain. -/
theorem Plain.eq_of_detail (h : l.Plain) (h' : l'.Plain) (hkind : l.kind = l'.kind)
    (hdetail : l.detail = l'.detail) : l = l' := by
  have hparen (name : String) (params : List String) :
      '(' ∈ (definition name params).detail.toList := by
    rw [toList_detail_definition]
    exact List.mem_append_right _ List.mem_cons_self
  cases l with
  | plain k =>
    cases l' with
    | plain k' => exact congrArg plain hkind
    | named k' name' =>
      exact absurd hdetail.symm (h' name' (List.mem_singleton_self name')).ne_empty
    | definition name' params' =>
      exact absurd (hdetail ▸ hparen name' params') (h.parenthesis nofun)
  | named k name =>
    cases l' with
    | plain k' => exact absurd hdetail (h name (List.mem_singleton_self name)).ne_empty
    | named k' name' => exact congrArg₂ named hkind hdetail
    | definition name' params' =>
      exact absurd (hdetail ▸ hparen name' params') (h.parenthesis nofun)
  | definition name params =>
    cases l' with
    | plain k' | named k' name' =>
      exact absurd (hdetail ▸ hparen name params) (h'.parenthesis nofun)
    | definition name' params' =>
      have hlist := congrArg String.toList hdetail
      rw [toList_detail_definition, toList_detail_definition] at hlist
      obtain ⟨hname, hparams⟩ := List.forall_mem_cons.1 h
      obtain ⟨hname', hparams'⟩ := List.forall_mem_cons.1 h'
      obtain ⟨hn, hp⟩ := cut_inj hname.opening hname'.opening hlist
      rw [String.toList_inj.1 hn, PlainName.intercalate_injective hparams hparams'
        (String.toList_inj.1 (List.append_cancel_right hp))]

/-- **A line with plain names is determined by its text.** -/
theorem text_injective (h : l.Plain) (h' : l'.Plain) (htext : l.text = l'.text) : l = l' := by
  have hkind := kind_eq htext
  have hlist : l.kind.lead.toList ++ l.detail.toList = l.kind.lead.toList ++ l'.detail.toList := by
    rw [← toList_text, htext, toList_text, hkind]
  exact h.eq_of_detail h' hkind (String.toList_inj.1 (List.append_cancel_left hlist))

/-- A line does not start with a space. -/
theorem exists_text_eq_cons (l : Line) : ∃ c cs, l.text.toList = c :: cs ∧ c ≠ ' ' := by
  obtain ⟨⟨c, cs, hlead, hc⟩, -⟩ := l.kind.lead_visible
  exact ⟨c, cs ++ l.detail.toList, by rw [toList_text, hlead, List.cons_append], hc⟩

/-- A line with plain names has no line end inside it. -/
theorem Plain.newline (h : l.Plain) : '\n' ∉ l.text.toList := by
  rw [toList_text, List.mem_append]
  rintro (hc | hc)
  · exact l.kind.lead_visible.2 hc
  · cases l with
    | plain k => simp [detail] at hc
    | named k name => exact (h name (List.mem_singleton_self name)).newline hc
    | definition name params =>
      obtain ⟨hname, hparams⟩ := List.forall_mem_cons.1 h
      have hc : '\n' ∈ name.toList ∨ '\n' ∈ (String.intercalate ", " params).toList := by
        simpa [toList_detail_definition] using hc
      exact hc.elim hname.newline (PlainName.newline_intercalate hparams)

end Line

/-! ### Texts -/

/-- The text of lines, each indented by its depth. -/
def typeset (width : Nat) : List (Nat × Line) → String
  | [] => ""
  | (d, l) :: more =>
    String.ofList (List.replicate (d * width) ' ') ++ l.text ++ "\n" ++ typeset width more

theorem toList_typeset_cons (width d : Nat) (l : Line) (more : List (Nat × Line)) :
    (typeset width ((d, l) :: more)).toList =
      (List.replicate (d * width) ' ' ++ l.text.toList) ++ '\n' :: (typeset width more).toList := by
  simp [typeset, String.toList_append]

theorem typeset_append (width : Nat) (ls more : List (Nat × Line)) :
    typeset width (ls ++ more) = typeset width ls ++ typeset width more := by
  induction ls with
  | nil => simp [typeset]
  | cons l ls ih => simp [typeset, ih, String.append_assoc]

/-- Spaces end where something else starts. -/
theorem spaces_inj {m n : Nat} {c c' : Char} {cs cs' : List Char} (hc : c ≠ ' ') (hc' : c' ≠ ' ')
    (h : List.replicate m ' ' ++ c :: cs = List.replicate n ' ' ++ c' :: cs') :
    m = n ∧ c :: cs = c' :: cs' := by
  induction m generalizing n with
  | zero =>
    cases n with
    | zero => exact ⟨rfl, h⟩
    | succ n => exact absurd (List.cons.inj h).1 hc
  | succ m ih =>
    cases n with
    | zero => exact absurd (List.cons.inj h).1.symm hc'
    | succ n =>
      obtain ⟨rfl, htail⟩ := ih (List.cons.inj h).2
      exact ⟨rfl, htail⟩

/-- **A text determines its lines and their depths**, if there are spaces for a depth. -/
theorem typeset_injective {width : Nat} (hwidth : 1 ≤ width) {ls ls' : List (Nat × Line)}
    (hls : ∀ l ∈ ls, l.2.Plain) (hls' : ∀ l ∈ ls', l.2.Plain)
    (h : typeset width ls = typeset width ls') : ls = ls' := by
  have hne (l : Nat × Line) (more : List (Nat × Line)) : typeset width (l :: more) ≠ "" := by
    intro hempty
    have hlist := congrArg String.toList hempty
    obtain ⟨d, l⟩ := l
    rw [toList_typeset_cons] at hlist
    exact List.cons_ne_nil _ _ (List.append_eq_nil_iff.1 hlist).2
  induction ls generalizing ls' with
  | nil =>
    cases ls' with
    | nil => rfl
    | cons l' more' => exact absurd h.symm (hne l' more')
  | cons l more ih =>
    cases ls' with
    | nil => exact absurd h (hne l more)
    | cons l' more' =>
      obtain ⟨d, l⟩ := l
      obtain ⟨d', l'⟩ := l'
      obtain ⟨hl, hmore⟩ := List.forall_mem_cons.1 hls
      obtain ⟨hl', hmore'⟩ := List.forall_mem_cons.1 hls'
      have hlist := congrArg String.toList h
      rw [toList_typeset_cons, toList_typeset_cons] at hlist
      have hline {d : Nat} {l : Line} (hl : l.Plain) :
          '\n' ∉ List.replicate (d * width) ' ' ++ l.text.toList := by
        rw [List.mem_append]
        rintro (hc | hc)
        · exact absurd (List.eq_of_mem_replicate hc) (by decide)
        · exact hl.newline hc
      obtain ⟨hhead, htail⟩ := cut_inj (hline hl) (hline hl') hlist
      obtain ⟨c, cs, htext, hc⟩ := l.exists_text_eq_cons
      obtain ⟨c', cs', htext', hc'⟩ := l'.exists_text_eq_cons
      rw [htext, htext'] at hhead
      obtain ⟨hdepth, hchars⟩ := spaces_inj hc hc' hhead
      obtain rfl := Nat.eq_of_mul_eq_mul_right hwidth hdepth
      rw [← htext, ← htext', String.toList_inj] at hchars
      obtain rfl : l = l' := Line.text_injective hl hl' hchars
      rw [ih hmore hmore' (String.toList_inj.1 htail)]

end StagedGraph
