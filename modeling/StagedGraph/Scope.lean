import StagedGraph.NameMap
import StagedGraph.Value

/-!
# Scopes

A scope binds names to values and may have a parent. Scopes form a forest: many scopes may
share a parent, and whoever knows the number of a scope sees every change to it. A `Forest`
lists its scopes from the newest to the oldest. A scope can only be made under one that
exists, so a parent is always further down the list, and a walk up the parents is one pass
down the list.

Looking a name up walks through all parents. Updating a binding walks up to the nearest
scope that is the root of a frame, the global scope or the scope of a call, and no further.
-/

namespace StagedGraph

/-- What a scope was made for. -/
inductive ScopeKind where
  | global
  | frame
  | block
deriving DecidableEq, Repr

namespace ScopeKind

/-- Whether an update stops at a scope of this kind. -/
def isFrameRoot : ScopeKind → Bool
  | global => true
  | frame => true
  | block => false

/-- The text of a kind. -/
def dump : ScopeKind → String
  | global => "Global"
  | frame => "Frame"
  | block => "Block"

end ScopeKind

/-- The number of a scope in its forest. -/
structure ScopeId where
  index : Nat
deriving DecidableEq, Repr, Inhabited

/-- A scope: its number, what it binds, its parent and its kind. -/
structure Scope (R : Type) where
  id : ScopeId
  bindings : NameMap (Value R)
  parent : Option ScopeId
  kind : ScopeKind
deriving Repr, DecidableEq

/-- The place of a scope in its forest, whatever it binds. -/
def Scope.place {R : Type} (s : Scope R) : ScopeId × Option ScopeId × ScopeKind :=
  (s.id, s.parent, s.kind)

/-- All scopes, the newest first. -/
structure Forest (R : Type) where
  scopes : List (Scope R)
deriving Repr, DecidableEq

namespace Forest

variable {R : Type}

/-- The forest without scopes. -/
def empty : Forest R := ⟨[]⟩

/-- The number that the next scope gets. -/
def nextId (t : Forest R) : ScopeId :=
  match t.scopes with
  | [] => ⟨0⟩
  | s :: _ => ⟨s.id.index + 1⟩

/-- A new scope that binds `bindings`. -/
def add (t : Forest R) (bindings : NameMap (Value R)) (parent : Option ScopeId) (kind : ScopeKind) :
    ScopeId × Forest R :=
  (t.nextId, ⟨⟨t.nextId, bindings, parent, kind⟩ :: t.scopes⟩)

/-- A new empty scope without a parent. -/
def root (t : Forest R) (kind : ScopeKind) : ScopeId × Forest R := t.add NameMap.empty none kind

/-- A new empty scope under a parent. -/
def child (t : Forest R) (parent : ScopeId) (kind : ScopeKind) : ScopeId × Forest R :=
  t.add NameMap.empty (some parent) kind

/-- The scope with this number. -/
def get? (t : Forest R) (i : ScopeId) : Option (Scope R) := t.scopes.find? (·.id = i)

/-- A new scope with the bindings, the parent and the kind of another one. The two bind
names independently from now on; their parent is shared. -/
def copy (t : Forest R) (i : ScopeId) : ScopeId × Forest R :=
  match t.get? i with
  | some s => t.add s.bindings s.parent s.kind
  | none => t.root .global

/-- Forgets a scope. -/
def release (t : Forest R) (i : ScopeId) : Forest R := ⟨t.scopes.eraseP (·.id = i)⟩

/-- Binds a name in the first scope with this number. -/
def defineIn (i : ScopeId) (x : Name) (v : Value R) : List (Scope R) → List (Scope R)
  | [] => []
  | s :: rest =>
    if s.id = i then { s with bindings := s.bindings.insert x v } :: rest
    else s :: defineIn i x v rest

/-- Binds a name in this scope, whatever its parents bind. -/
def define (t : Forest R) (i : ScopeId) (x : Name) (v : Value R) : Forest R :=
  ⟨defineIn i x v t.scopes⟩

/-- The nearest binding of a name, from scope `i` up through all its parents. -/
def lookupIn (i : ScopeId) (x : Name) : List (Scope R) → Option (Value R)
  | [] => none
  | s :: rest =>
    if s.id = i then
      match s.bindings.find? x, s.parent with
      | some v, _ => some v
      | none, some j => lookupIn j x rest
      | none, none => none
    else lookupIn i x rest

/-- The nearest binding of a name on the chain of parents. -/
def lookup (t : Forest R) (i : ScopeId) (x : Name) : Option (Value R) := lookupIn i x t.scopes

/-- Replaces the nearest binding of a name from scope `i` up to the first root of a frame;
`none` if none of these scopes binds the name. -/
def updateIn (i : ScopeId) (x : Name) (v : Value R) : List (Scope R) → Option (List (Scope R))
  | [] => none
  | s :: rest =>
    if s.id = i then
      if s.bindings.contains x then some ({ s with bindings := s.bindings.insert x v } :: rest)
      else if s.kind.isFrameRoot then none
      else
        match s.parent with
        | some j => (updateIn j x v rest).map (s :: ·)
        | none => none
    else (updateIn i x v rest).map (s :: ·)

/-- Replaces the nearest binding of a name inside the frame of scope `i`, if there is one. -/
def update? (t : Forest R) (i : ScopeId) (x : Name) (v : Value R) : Option (Forest R) :=
  (updateIn i x v t.scopes).map Forest.mk

/-- Replaces the nearest binding of a name inside the frame of scope `i`, or hands the value back if
there is none. -/
def update (t : Forest R) (i : ScopeId) (x : Name) (v : Value R) : Except (Value R) (Forest R) :=
  match t.update? i x v with
  | some u => .ok u
  | none => .error v

/-- What a scope binds itself. -/
def bindings (t : Forest R) (i : ScopeId) : List (Name × Value R) :=
  ((t.get? i).map fun s => s.bindings.entries).getD []

/-! ### Places -/

theorem map_place_defineIn (i : ScopeId) (x : Name) (v : Value R) (ss : List (Scope R)) :
    (defineIn i x v ss).map Scope.place = ss.map Scope.place := by
  induction ss with
  | nil => rfl
  | cons s rest ih =>
    rw [defineIn]
    split
    · rfl
    · rw [List.map_cons, ih, List.map_cons]

theorem map_place_define (t : Forest R) (i : ScopeId) (x : Name) (v : Value R) :
    (t.define i x v).scopes.map Scope.place = t.scopes.map Scope.place :=
  map_place_defineIn i x v t.scopes

theorem map_place_updateIn {x : Name} {v : Value R} {i : ScopeId} {ss ts : List (Scope R)}
    (h : updateIn i x v ss = some ts) : ts.map Scope.place = ss.map Scope.place := by
  induction ss generalizing i ts with
  | nil => cases h
  | cons s rest ih =>
    have later {j : ScopeId} (hj : (updateIn j x v rest).map (s :: ·) = some ts) :
        ts.map Scope.place = (s :: rest).map Scope.place := by
      obtain ⟨rest', hrest, rfl⟩ := Option.map_eq_some_iff.1 hj
      rw [List.map_cons, ih hrest, List.map_cons]
    rw [updateIn] at h
    split at h
    · split at h
      · cases h; rfl
      · split at h
        · cases h
        · split at h
          · exact later h
          · cases h
    · exact later h

theorem map_place_update? {t u : Forest R} {i : ScopeId} {x : Name} {v : Value R}
    (h : t.update? i x v = some u) : u.scopes.map Scope.place = t.scopes.map Scope.place := by
  obtain ⟨ts, hts, rfl⟩ := Option.map_eq_some_iff.1 h
  exact map_place_updateIn hts

/-- The scopes of a chain. The last one is the global scope and has number zero; each of the
others has the one after it as its parent and the number after its parent's. -/
inductive Chain : List (Scope R) → Prop
  | global (m : NameMap (Value R)) : Chain [⟨⟨0⟩, m, none, .global⟩]
  | inner {s : Scope R} {rest : List (Scope R)} (m : NameMap (Value R)) (kind : ScopeKind) :
      Chain (s :: rest) → Chain (⟨⟨s.id.index + 1⟩, m, some s.id, kind⟩ :: s :: rest)

namespace Chain

/-- Being a chain is a matter of the places only. -/
theorem congr {ss ts : List (Scope R)} (h : Chain ss) (hp : ts.map Scope.place = ss.map Scope.place) :
    Chain ts := by
  induction h generalizing ts with
  | global m =>
    obtain ⟨⟨i, n, j, k⟩, rfl, ht⟩ := List.map_eq_singleton_iff.1 hp
    simp only [Scope.place, Prod.mk.injEq] at ht
    obtain ⟨rfl, rfl, rfl⟩ := ht
    exact .global n
  | @inner s rest m kind _ ih =>
    obtain ⟨⟨i, n, j, k⟩, ts', rfl, ht, hts⟩ := List.map_eq_cons_iff.1 hp
    obtain ⟨u, us, rfl, hu, -⟩ := List.map_eq_cons_iff.1 hts
    have hid : u.id = s.id := congrArg Prod.fst hu
    simp only [Scope.place, Prod.mk.injEq] at ht
    obtain ⟨rfl, rfl, rfl⟩ := ht
    rw [← hid]
    exact .inner n _ (ih hts)

end Chain

end Forest

end StagedGraph
