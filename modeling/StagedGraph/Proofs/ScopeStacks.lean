import Mathlib.Logic.Function.Basic
import StagedGraph.Proofs.Confinement

/-!
# An environment is a stack of maps

An environment keeps its open scopes in three ways: as a forest of scopes with parents, as a
stack of numbers, and as the number of the global scope. Whoever uses it sees none of this,
only a stack of maps from names, the innermost first. `Layer` is such a map, and
`Layer.perform` says in a line for each operation what the operation does to the stack: a
name is looked up from the inside out through all maps; a definition writes the innermost
map; an assignment writes the nearest map of the current frame that has the name, or else
the innermost one.

Every sequence of operations on a new environment has the answers of the stack and leaves
the maps of the stack, and in the environment that it leaves the three views agree
(`environment_follows_layers`). Whatever is done in a frame that is opened on top of it leaves the
scopes below as they were.
-/

namespace StagedGraph

variable {R : Type}

/-! ### Operations -/

/-- An operation on the open scopes. -/
inductive ScopeOp (R : Type) where
  | push (kind : ScopeKind)
  | pop
  | define (x : Name) (v : Value R)
  | assign (x : Name) (v : Value R)
  | bind (params : List Name) (args : List (Value R))
  | lookup (x : Name)
  | globals
  | depth

/-- What an operation answers, if it answers anything. Bindings are the pairs of a map, in no
order. -/
inductive ScopeAnswer (R : Type) where
  | done
  | value (v : Option (Value R))
  | bindings (holds : Name → Value R → Prop)
  | count (n : Nat)

namespace ScopeOp

/-- Operations one after another, with their answers in order. -/
def performAll {σ : Type} (perform : ScopeOp R → σ → ScopeAnswer R × σ) :
    List (ScopeOp R) → σ → List (ScopeAnswer R) × σ
  | [], s => ([], s)
  | op :: ops, s =>
    let (answer, s) := perform op s
    let (answers, s) := performAll perform ops s
    (answer :: answers, s)

/-- How many scopes are open after these operations, of those opened since `n` were; nothing if
the operations close another one. -/
def opened : Nat → List (ScopeOp R) → Option Nat
  | n, [] => some n
  | n, push _ :: ops => opened (n + 1) ops
  | 0, pop :: _ => none
  | n + 1, pop :: ops => opened n ops
  | n, _ :: ops => opened n ops

end ScopeOp

namespace Environment

/-- An operation on an environment. -/
def perform : ScopeOp R → Environment R → ScopeAnswer R × Environment R
  | .push kind, env => (.done, env.push kind)
  | .pop, env => (.done, env.pop)
  | .define x v, env => (.done, env.define x v)
  | .assign x v, env => (.done, env.assign x v)
  | .bind params args, env => (.done, env.bind params args)
  | .lookup x, env => (.value (env.lookup x), env)
  | .globals, env => (.bindings fun x v => (x, v) ∈ env.globals, env)
  | .depth, env => (.count env.depth, env)

/-- The environment after these operations. -/
def after (ops : List (ScopeOp R)) (env : Environment R) : Environment R :=
  (ScopeOp.performAll perform ops env).2

/-- The three views of the open scopes agree: the parent of a scope is the one below it on the
stack, and the scope at the bottom is the global one. -/
structure Linked (env : Environment R) : Prop where
  parents : ∀ i j, env.stack[i]? = some j →
    ∃ s, env.forest.get? j = some s ∧ s.parent = env.stack[i + 1]?
  bottom : env.stack.getLast? = some env.global
  global : ∃ s, env.forest.get? env.global = some s ∧ s.kind = .global

end Environment

/-! ### The stack of maps -/

/-- A map from names, and what it was made for. -/
structure Layer (R : Type) where
  kind : ScopeKind
  find : Name → Option (Value R)

namespace Layer

/-- The map without names. -/
def empty (kind : ScopeKind) : Layer R := ⟨kind, fun _ => none⟩

/-- Gives a name a value. -/
def set (x : Name) (v : Value R) (l : Layer R) : Layer R :=
  { l with find := Function.update l.find x (some v) }

/-- The innermost value of a name. -/
def lookup (x : Name) (ls : List (Layer R)) : Option (Value R) := ls.findSome? (·.find x)

/-- Writes the innermost map. -/
def define (x : Name) (v : Value R) (ls : List (Layer R)) : List (Layer R) := ls.modify 0 (set x v)

/-- The maps of the current frame: those up to the nearest root of a frame, and the root. -/
def frame (ls : List (Layer R)) : List (Layer R) := ls.take (ls.findIdx (·.kind.isFrameRoot) + 1)

/-- The nearest map of the current frame that has a name, or else the innermost map. -/
def target (x : Name) (ls : List (Layer R)) : Nat :=
  ((frame ls).findIdx? fun l => (l.find x).isSome).getD 0

/-- Writes the map that is the target of the name, and no other. -/
def assign (x : Name) (v : Value R) (ls : List (Layer R)) : List (Layer R) :=
  ls.modify (target x ls) (set x v)

/-- An operation on a stack of maps. -/
def perform : ScopeOp R → List (Layer R) → ScopeAnswer R × List (Layer R)
  | .push kind, ls => (.done, empty kind :: ls)
  | .pop, ls => (.done, if 1 < ls.length then ls.tail else ls)
  | .define x v, ls => (.done, define x v ls)
  | .assign x v, ls => (.done, assign x v ls)
  | .bind params args, ls => (.done, (params.zip args).foldl (fun ls b => define b.1 b.2 ls) ls)
  | .lookup x, ls => (.value (lookup x ls), ls)
  | .globals, ls => (.bindings fun x v => ls.getLast?.bind (·.find x) = some v, ls)
  | .depth, ls => (.count ls.length, ls)

end Layer

/-- The map that a level is. -/
def Level.layer (l : Level R) : Layer R := ⟨l.kind, l.bindings.find?⟩

/-- The maps of the open scopes, the innermost first. -/
def Environment.layers (env : Environment R) : List (Layer R) := env.levels.map Level.layer

namespace Level

theorem layer_insert (l : Level R) (x : Name) (v : Value R) :
    (l.insert x v).layer = l.layer.set x v := by
  simp only [layer, insert, Layer.set, Layer.mk.injEq, true_and]
  funext y
  by_cases h : y = x
  · simp [NameMap.find?_insert, h]
  · simp [NameMap.find?_insert, h, Ne.symm h]

theorem lookup_layers (x : Name) (ls : List (Level R)) :
    Layer.lookup x (ls.map layer) = lookup x ls := by
  induction ls with
  | nil => rfl
  | cons l ls ih =>
    rw [Layer.lookup] at ih ⊢
    cases h : l.bindings.find? x <;> simp [lookup, layer, h, ih]

theorem define_layers (x : Name) (v : Value R) (ls : List (Level R)) :
    (define x v ls).map layer = Layer.define x v (ls.map layer) := by
  cases ls <;> simp [define, Layer.define, layer_insert]

/-- An update writes the nearest map of the frame that has the name, if there is one. -/
theorem update_layers (x : Name) (v : Value R) (ls : List (Level R)) :
    (update x v ls).map (List.map layer) =
      ((Layer.frame (ls.map layer)).findIdx? fun l => (l.find x).isSome).map
        fun i => (ls.map layer).modify i (Layer.set x v) := by
  induction ls with
  | nil => rfl
  | cons l ls ih =>
    have hfind : (l.layer.find x).isSome = l.bindings.contains x := rfl
    have hkind : l.layer.kind = l.kind := rfl
    rw [update]
    by_cases hx : l.bindings.contains x = true
    · simp [hx, hfind, Layer.frame, List.findIdx?_cons, layer_insert]
    · by_cases hk : l.kind.isFrameRoot = true
      · simp [hx, hk, hfind, hkind, Layer.frame, List.findIdx?_cons, List.findIdx_cons]
      · have hframe : Layer.frame ((l :: ls).map layer) =
            l.layer :: Layer.frame (ls.map layer) := by
          simp [Layer.frame, List.findIdx_cons, hkind, hk]
        have hcons : List.map layer ∘ (l :: ·) = (l.layer :: ·) ∘ List.map layer := rfl
        rw [hframe, List.findIdx?_cons, hfind, if_neg hx, if_neg hx, if_neg hk, Option.map_map,
          Option.map_map, hcons, ← Option.map_map, ih, Option.map_map]
        rfl

theorem assign_layers (x : Name) (v : Value R) (ls : List (Level R)) :
    (assign x v ls).map layer = Layer.assign x v (ls.map layer) := by
  have hupdate := update_layers x v ls
  rw [assign, Layer.assign, Layer.target]
  cases hindex : (Layer.frame (ls.map layer)).findIdx? fun l => (l.find x).isSome with
  | some i =>
    rw [hindex] at hupdate
    obtain ⟨ms, hms, hlayers⟩ := Option.map_eq_some_iff.1 hupdate
    rw [hms]
    exact hlayers
  | none =>
    rw [hindex] at hupdate
    rw [Option.map_eq_none_iff.1 hupdate]
    exact define_layers x v ls

end Level

/-! ### The environment and the stack -/

namespace Environment

theorem layers_bind (env : Environment R) (params : List Name) (args : List (Value R)) :
    (env.bind params args).layers =
      (params.zip args).foldl (fun ls b => Layer.define b.1 b.2 ls) env.layers := by
  rw [layers, levels_bind, layers]
  generalize env.levels = ls
  induction params.zip args generalizing ls with
  | nil => rfl
  | cons b bs ih => rw [List.foldl_cons, ih, Level.define_layers, List.foldl_cons]

/-- Where a scope is open inside another one, it is closed. -/
theorem levels_pop_tail {env : Environment R} (h : env.levels.tail ≠ []) :
    env.pop.levels = env.levels.tail := by
  cases hls : env.levels with
  | nil => exact absurd hls env.levels_ne_nil
  | cons l ls => exact levels_pop hls (by rwa [hls] at h)

theorem layers_pop (env : Environment R) :
    env.pop.layers = if 1 < env.layers.length then env.layers.tail else env.layers := by
  rw [layers, layers]
  cases hls : env.levels with
  | nil => exact absurd hls env.levels_ne_nil
  | cons l ls =>
    cases ls with
    | nil => simp [pop_of_levels_eq_singleton hls, hls]
    | cons m ls => simp [levels_pop hls (List.cons_ne_nil m ls)]

/-- The global scope is the map at the bottom. -/
theorem mem_globals (env : Environment R) (x : Name) (v : Value R) :
    (x, v) ∈ env.globals ↔ env.layers.getLast?.bind (·.find x) = some v := by
  obtain ⟨l, hl⟩ : ∃ l, env.levels.getLast? = some l :=
    ⟨_, List.getLast?_eq_some_getLast env.levels_ne_nil⟩
  rw [globals_eq hl, layers, List.getLast?_map, hl]
  exact NameMap.find?_eq_some.symm

/-- **An operation does to an environment what it does to its maps**, and answers the same. -/
theorem layers_perform (op : ScopeOp R) (env : Environment R) :
    Layer.perform op env.layers = ((env.perform op).1, (env.perform op).2.layers) := by
  cases op with
  | push kind => rfl
  | pop => simp [Layer.perform, perform, layers_pop]
  | define x v => simp [Layer.perform, perform, layers, levels_define, Level.define_layers]
  | assign x v => simp [Layer.perform, perform, layers, levels_assign, Level.assign_layers]
  | bind params args => simp [Layer.perform, perform, layers_bind]
  | lookup x => simp [Layer.perform, perform, layers, Level.lookup_layers, lookup_eq]
  | globals => simp [Layer.perform, perform, mem_globals]
  | depth => simp [Layer.perform, perform, layers, length_levels]

/-- So do any operations, by induction on their sequence. -/
theorem layers_performAll (ops : List (ScopeOp R)) (env : Environment R) :
    ScopeOp.performAll Layer.perform ops env.layers =
      ((ScopeOp.performAll perform ops env).1, (env.after ops).layers) := by
  induction ops generalizing env with
  | nil => rfl
  | cons op ops ih =>
    simp only [ScopeOp.performAll, after] at ih ⊢
    rw [layers_perform, ih]

end Environment

/-! ### The three views -/

/-- A scope of a chain is found by its number, and its parent is the one after it. -/
theorem Forest.Chain.find?_getElem {s : Scope R} {ss : List (Scope R)} {i : Nat} (h : Chain ss)
    (hs : ss[i]? = some s) :
    ss.find? (·.id = s.id) = some s ∧ s.parent = (ss.map Scope.id)[i + 1]? := by
  induction h generalizing i with
  | global m =>
    cases i with
    | zero => cases hs; simp
    | succ i => simp at hs
  | @inner t rest m kind hc ih =>
    cases i with
    | zero => cases hs; simp
    | succ i =>
      have hrest : (t :: rest)[i]? = some s := by simpa using hs
      have hlt := ne_of_mem (.inner m kind hc) (List.mem_of_getElem? hrest)
      have hne : ¬ (⟨t.id.index + 1⟩ : ScopeId) = s.id := fun e => by simp [← e] at hlt
      rw [List.find?_cons_of_neg (by simpa using hne)]
      exact ih hrest

/-- The scope at the bottom of a chain is a global one. -/
theorem Forest.Chain.kind_getLast {s : Scope R} {ss : List (Scope R)} (h : Chain ss)
    (hs : ss.getLast? = some s) : s.kind = .global := by
  induction h with
  | global m => cases hs; rfl
  | inner m kind hc ih => exact ih (by rwa [List.getLast?_cons_cons] at hs)

/-- **The three views of an environment agree.** -/
theorem Environment.linked (env : Environment R) : env.Linked where
  parents i j hj := by
    rw [env.stack_eq, List.getElem?_map] at hj
    obtain ⟨s, hs, rfl⟩ := Option.map_eq_some_iff.1 hj
    obtain ⟨hfind, hparent⟩ := env.chain.find?_getElem hs
    exact ⟨s, hfind, env.stack_eq ▸ hparent⟩
  bottom := env.bottom
  global := by
    have hbottom := env.bottom
    rw [env.stack_eq, List.getLast?_map] at hbottom
    obtain ⟨s, hs, hid⟩ := Option.map_eq_some_iff.1 hbottom
    refine ⟨s, ?_, env.chain.kind_getLast hs⟩
    rw [← hid]
    exact env.chain.find?_last hs

/-! ### Frames -/

namespace Level

/-- Level `n` is the root of a frame, and below it are the levels `outer`. -/
structure Over (outer : List (Level R)) (n : Nat) (ls : List (Level R)) : Prop where
  root : ∃ l, ls[n]? = some l ∧ l.kind.isFrameRoot = true
  below : ls.drop (n + 1) = outer

/-- The current frame is no larger than the part of the stack down to any root of a frame. -/
theorem frameSize_le {ls : List (Level R)} {n : Nat} {l : Level R} (hl : ls[n]? = some l)
    (hroot : l.kind.isFrameRoot = true) : frameSize ls ≤ n + 1 := by
  induction ls generalizing n with
  | nil => simp at hl
  | cons m ls ih =>
    rw [frameSize]
    split
    · omega
    · next hm =>
      cases n with
      | zero =>
        cases hl
        exact absurd hroot hm
      | succ n =>
        have hrest := ih (n := n) (by simpa using hl)
        omega

namespace Over

variable {outer ls ms : List (Level R)} {n : Nat} {l : Level R}

theorem push (h : Over outer n ls) (l : Level R) : Over outer (n + 1) (l :: ls) :=
  ⟨by simpa using h.root, by simpa using h.below⟩

theorem pop (h : Over outer (n + 1) ls) : Over outer n ls.tail :=
  ⟨by simpa using h.root, by simpa using h.below⟩

theorem ne_nil (h : Over outer n ls) : ls ≠ [] := by
  rintro rfl
  obtain ⟨_, hroot, -⟩ := h.root
  cases hroot

/-- What is confined to the current frame is confined to the part above `outer`. -/
theorem confined (h : Over outer n ls) (hc : Confined ls ms) : Over outer n ms := by
  obtain ⟨⟨l, hl, hroot⟩, rfl⟩ := h
  constructor
  · have hkind : (ms.map Level.kind)[n]? = some l.kind := by
      rw [hc.kinds, List.getElem?_map, hl]
      rfl
    rw [List.getElem?_map] at hkind
    obtain ⟨m, hm, hmk⟩ := Option.map_eq_some_iff.1 hkind
    exact ⟨m, hm, hmk ▸ hroot⟩
  · refine List.ext_getElem? fun i => ?_
    rw [List.getElem?_drop, List.getElem?_drop]
    exact hc.outside _ (Nat.le_trans (frameSize_le hl hroot) (Nat.le_add_right _ i))

theorem define (h : Over outer n ls) (x : Name) (v : Value R) : Over outer n (define x v ls) := by
  cases ls with
  | nil => exact h
  | cons l ls =>
    obtain ⟨⟨m, hm, hroot⟩, hbelow⟩ := h
    refine ⟨?_, hbelow⟩
    cases n with
    | zero =>
      cases hm
      exact ⟨_, rfl, hroot⟩
    | succ n => exact ⟨m, hm, hroot⟩

theorem bind (h : Over outer n ls) (bs : List (Name × Value R)) :
    Over outer n (bs.foldl (fun ls b => Level.define b.1 b.2 ls) ls) := by
  induction bs generalizing ls with
  | nil => exact h
  | cons b bs ih => exact ih (h.define b.1 b.2)

end Over

end Level

namespace Environment

open Level

variable {outer : List (Level R)} {env : Environment R} {ops : List (ScopeOp R)} {n m : Nat}

/-- An operation that closes no scope below the frame stays above it. -/
theorem over_perform {op : ScopeOp R} (h : Over outer n env.levels)
    (hops : ScopeOp.opened n (op :: ops) = some m) :
    ∃ k, Over outer k (env.perform op).2.levels ∧ ScopeOp.opened k ops = some m := by
  cases op with
  | push kind => exact ⟨n + 1, h.push ⟨NameMap.empty, kind⟩, hops⟩
  | pop =>
    cases n with
    | zero => cases hops
    | succ n => exact ⟨n, levels_pop_tail h.pop.ne_nil ▸ h.pop, hops⟩
  | define x v => exact ⟨n, levels_define env x v ▸ h.define x v, hops⟩
  | assign x v =>
    exact ⟨n, levels_assign env x v ▸ h.confined (.assign x v env.levels_ne_nil), hops⟩
  | bind params args => exact ⟨n, levels_bind env params args ▸ h.bind _, hops⟩
  | lookup | globals | depth => exact ⟨n, h, hops⟩

/-- Operations that close only scopes of their own stay above the frame that they start in, by
induction on their sequence. -/
theorem over_after (h : Over outer n env.levels) (hops : ScopeOp.opened n ops = some m) :
    Over outer m (env.after ops).levels := by
  induction ops generalizing n env with
  | nil =>
    cases hops
    exact h
  | cons op ops ih =>
    obtain ⟨k, hover, hrest⟩ := over_perform h hops
    exact ih hover hrest

theorem after_append (before ops : List (ScopeOp R)) (env : Environment R) :
    env.after (before ++ ops) = (env.after before).after ops := by
  induction before generalizing env with
  | nil => rfl
  | cons op before ih => exact ih _

/-- **What is done in a frame leaves the scopes below it alone**, as long as it closes only scopes
of its own. -/
theorem levels_after_frame (env : Environment R) (hops : ScopeOp.opened 0 ops = some n) :
    (env.after (.push .frame :: ops)).levels.drop (n + 1) = env.levels := by
  have hstart : Over env.levels 0 (env.push .frame).levels := ⟨⟨_, rfl, rfl⟩, rfl⟩
  exact (over_after hstart hops).below

/-- Once such a frame is closed, the environment is what it was. -/
theorem after_frame (env : Environment R) (hops : ScopeOp.opened 0 ops = some 0) :
    env.after (.push .frame :: (ops ++ [.pop])) = env := by
  have hbelow := levels_after_frame env hops
  have happend := after_append (.push .frame :: ops) [.pop] env
  rw [List.cons_append] at happend
  rw [happend]
  rw [List.drop_one] at hbelow
  have hne : (env.after (.push .frame :: ops)).levels.tail ≠ [] := hbelow ▸ env.levels_ne_nil
  exact ext_levels ((levels_pop_tail hne).trans hbelow)

end Environment

/-- **An environment is a stack of maps.** Any operations on a new environment have the answers
that they have on a stack that starts with the map of the global scope, and leave the same maps;
the parent of each open scope is the scope below it, and the global scope is at the bottom. When
a frame is opened then, operations that close only scopes of their own leave all other scopes as
they were, and once the frame is closed the environment is what it was. -/
theorem environment_follows_layers (ops : List (ScopeOp R)) :
    ((ScopeOp.performAll Environment.perform ops .empty).1,
        (Environment.empty.after ops).layers) =
      ScopeOp.performAll Layer.perform ops [.empty .global] ∧
    (Environment.empty.after ops).Linked ∧
    ∀ inside n, ScopeOp.opened 0 inside = some n →
      ((Environment.empty.after ops).after (.push .frame :: inside)).levels.drop (n + 1) =
          (Environment.empty.after ops).levels ∧
        (n = 0 → (Environment.empty.after ops).after (.push .frame :: (inside ++ [.pop])) =
          Environment.empty.after ops) := by
  refine ⟨(Environment.layers_performAll ops .empty).symm, Environment.linked _, ?_⟩
  intro inside n hinside
  refine ⟨Environment.levels_after_frame _ hinside, ?_⟩
  rintro rfl
  exact Environment.after_frame _ hinside

/-- A new environment keeps its only scope and binds a name there. -/
def boundOutside : List (ScopeOp Nat) := [.pop, .assign ⟨1⟩ (.int 1)]

/-- The name gets another value, is overwritten in a block, and is bound in a scope that shadows
it, whose parameters have the name twice. -/
def shadowing : List (ScopeOp Nat) :=
  [.assign ⟨1⟩ (.int 2), .push .block, .assign ⟨1⟩ (.int 3), .push .global,
    .bind [⟨1⟩, ⟨1⟩] [.void, .bool true], .lookup ⟨1⟩, .pop, .depth, .pop, .globals]

theorem environment_follows_layers_shadowing :
    ScopeOp.opened 0 shadowing = some 0 ∧
      ((Environment.empty.after boundOutside).after (.push .frame :: shadowing)).levels.drop 1 =
        (Environment.empty.after boundOutside).levels ∧
      (Environment.empty.after boundOutside).after (.push .frame :: (shadowing ++ [.pop])) =
        Environment.empty.after boundOutside := by
  have hopened : ScopeOp.opened 0 shadowing = some 0 := rfl
  obtain ⟨hbelow, hclosed⟩ := (environment_follows_layers boundOutside).2.2 shadowing 0 hopened
  exact ⟨hopened, hbelow, hclosed rfl⟩

end StagedGraph
