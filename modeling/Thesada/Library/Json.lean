import Thesada.Library.CString

/-!
# JSON documents as trees

Objects keep their members in order; a key set again keeps its place. A path goes down through
keys and indices. `Keeps T a b` is the frame of an edit: whatever `a` holds at a path that
parts ways with every target, `b` holds there too. Edits are built from `put`, which changes one
child, and the frame of each is read off the path it goes down.
-/

open CString

inductive Json where
  | null
  | bool (b : Bool)
  | int (n : Int)
  /-- A floating point number, as its bits. -/
  | float (bits : Nat)
  | str (s : Str)
  | arr (items : List Json)
  | obj (members : List (Str × Json))

namespace Json

/-! ## Members -/

def getMember (k : Str) : List (Str × Json) → Option Json
  | [] => none
  | (k', v) :: ms => if k' = k then some v else getMember k ms

/-- A member replaced where it stands, or added at the end. -/
def setMember (k : Str) (v : Json) : List (Str × Json) → List (Str × Json)
  | [] => [(k, v)]
  | (k', v') :: ms => if k' = k then (k', v) :: ms else (k', v') :: setMember k v ms

def removeMember (k : Str) : List (Str × Json) → List (Str × Json)
  | [] => []
  | (k', v) :: ms => if k' = k then ms else (k', v) :: removeMember k ms

@[simp] theorem getMember_setMember (k : Str) (v : Json) (ms : List (Str × Json)) :
    getMember k (setMember k v ms) = some v := by
  induction ms with
  | nil => simp [setMember, getMember]
  | cons m ms ih =>
      obtain ⟨k', v'⟩ := m
      by_cases same : k' = k
      · simp [setMember, getMember, same]
      · simp [setMember, getMember, same, ih]

theorem getMember_setMember_ne {k l : Str} (other : l ≠ k) (v : Json) (ms : List (Str × Json)) :
    getMember l (setMember k v ms) = getMember l ms := by
  induction ms with
  | nil => simp [setMember, getMember, other.symm]
  | cons m ms ih =>
      obtain ⟨k', v'⟩ := m
      by_cases same : k' = k
      · simp [setMember, getMember, same, other.symm]
      · simp [setMember, getMember, same, ih]

theorem setMember_same {k : Str} {v : Json} {ms : List (Str × Json)}
    (held : getMember k ms = some v) : setMember k v ms = ms := by
  induction ms with
  | nil => simp [getMember] at held
  | cons m ms ih =>
      obtain ⟨k', v'⟩ := m
      by_cases same : k' = k
      · simp only [getMember, same, if_true] at held
        simp [setMember, same, Option.some.inj held]
      · simp only [getMember, same, if_false] at held
        simp [setMember, same, ih held]

@[simp] theorem setMember_setMember (k : Str) (v w : Json) (ms : List (Str × Json)) :
    setMember k v (setMember k w ms) = setMember k v ms := by
  induction ms with
  | nil => simp [setMember]
  | cons m ms ih =>
      obtain ⟨k', v'⟩ := m
      by_cases same : k' = k
      · simp [setMember, same]
      · simp [setMember, same, ih]

/-- A member that was added is taken out again. -/
theorem removeMember_setMember {k : Str} {ms : List (Str × Json)} (absent : getMember k ms = none)
    (v : Json) : removeMember k (setMember k v ms) = ms := by
  induction ms with
  | nil => simp [setMember, removeMember]
  | cons m ms ih =>
      obtain ⟨k', v'⟩ := m
      by_cases same : k' = k
      · simp [getMember, same] at absent
      · simp only [getMember, same, if_false] at absent
        simp [setMember, removeMember, same, ih absent]

/-- A member set elsewhere does not show through a removal. -/
theorem getMember_removeMember_setMember {k l : Str} (other : k ≠ l) (r : Str) (v : Json)
    (ms : List (Str × Json)) :
    getMember k (removeMember r (setMember l v ms)) = getMember k (removeMember r ms) := by
  induction ms with
  | nil =>
      by_cases same : l = r
      · simp [setMember, removeMember, getMember, same]
      · simp [setMember, removeMember, getMember, same, other.symm]
  | cons m ms ih =>
      obtain ⟨k', v'⟩ := m
      by_cases set : k' = l
      · subst set
        by_cases removed : k' = r
        · simp [setMember, removeMember, removed]
        · simp [setMember, removeMember, getMember, removed, other.symm]
      · by_cases removed : k' = r
        · subst removed
          simp [setMember, removeMember, set, getMember_setMember_ne other]
        · simp [setMember, removeMember, getMember, set, removed, ih]

theorem getMember_removeMember_ne {k l : Str} (other : l ≠ k) (ms : List (Str × Json)) :
    getMember l (removeMember k ms) = getMember l ms := by
  induction ms with
  | nil => rfl
  | cons m ms ih =>
      obtain ⟨k', v'⟩ := m
      by_cases same : k' = k
      · simp [removeMember, getMember, same, other.symm]
      · simp [removeMember, getMember, same, ih]

/-! ## Kinds, reads and depth -/

def isNull : Json → Bool
  | .null => true
  | _ => false

def isObject : Json → Bool
  | .obj _ => true
  | _ => false

/-- The string a document holds, as a C string. -/
def asStr : Json → Option Str
  | .str s => some (cstr s)
  | _ => none

def asInt : Json → Option Int
  | .int n => some n
  | _ => none

/-- `j[k]` of a document that is read. -/
def member (k : Str) : Json → Json
  | .obj ms => (getMember k ms).getD .null
  | _ => .null

mutual

/-- The deepest nesting of arrays and objects. -/
def depth : Json → Nat
  | .arr items => depthItems items + 1
  | .obj ms => depthMembers ms + 1
  | _ => 0

def depthItems : List Json → Nat
  | [] => 0
  | j :: js => max j.depth (depthItems js)

def depthMembers : List (Str × Json) → Nat
  | [] => 0
  | (_, j) :: ms => max j.depth (depthMembers ms)

end

theorem depthMembers_setMember (k : Str) (v : Json) (ms : List (Str × Json)) :
    depthMembers (setMember k v ms) ≤ max v.depth (depthMembers ms) := by
  induction ms with
  | nil => simp [setMember, depthMembers]
  | cons m ms ih =>
      obtain ⟨k', v'⟩ := m
      simp only [setMember]
      split
      · simp only [depthMembers]
        omega
      · simp only [depthMembers]
        omega

theorem depthMembers_removeMember (k : Str) (ms : List (Str × Json)) :
    depthMembers (removeMember k ms) ≤ depthMembers ms := by
  induction ms with
  | nil => simp [removeMember]
  | cons m ms ih =>
      obtain ⟨k', v'⟩ := m
      simp only [removeMember]
      split
      · simp only [depthMembers]
        omega
      · simp only [depthMembers]
        omega

theorem depth_getMember {k : Str} {v : Json} {ms : List (Str × Json)}
    (held : getMember k ms = some v) : v.depth ≤ depthMembers ms := by
  induction ms with
  | nil => simp [getMember] at held
  | cons m ms ih =>
      obtain ⟨k', v'⟩ := m
      simp only [getMember] at held
      simp only [depthMembers]
      split at held
      · obtain rfl := Option.some.inj held
        omega
      · have := ih held
        omega

/-! ## Paths -/

inductive Seg where
  | key (k : Str)
  | index (i : Nat)
  deriving DecidableEq

abbrev Path := List Seg

def child : Json → Seg → Option Json
  | .obj ms, .key k => getMember k ms
  | .arr items, .index i => items[i]?
  | _, _ => none

def atPath : Json → Path → Option Json
  | j, [] => some j
  | j, s :: p => (j.child s).bind fun c => c.atPath p

/-- One child replaced. A key or the index one past the end is added; a step of the wrong kind
changes nothing. -/
def put : Json → Seg → Json → Json
  | .obj ms, .key k, v => .obj (setMember k v ms)
  | .arr items, .index i, v =>
      if i < items.length then .arr (items.set i v)
      else if i = items.length then .arr (items ++ [v])
      else .arr items
  | j, _, _ => j

/-- The paths part ways: neither goes through the end of the other. -/
def Apart : Path → Path → Prop
  | s :: p, t :: q => s ≠ t ∨ Apart p q
  | _, _ => False

instance Apart.decidable : ∀ p q, Decidable (Apart p q)
  | s :: p, t :: q =>
      have : Decidable (Apart p q) := Apart.decidable p q
      inferInstanceAs (Decidable (s ≠ t ∨ Apart p q))
  | [], _ => isFalse id
  | _ :: _, [] => isFalse id

theorem Apart.extend {p q : Path} (apart : Apart p q) (r : Path) : Apart p (q ++ r) := by
  induction q generalizing p with
  | nil => cases p <;> simp [Apart] at apart
  | cons t q ih =>
      cases p with
      | nil => simp [Apart] at apart
      | cons s p =>
          simp only [Apart, List.cons_append] at apart ⊢
          exact apart.imp_right ih

theorem child_put_ne {s t : Seg} (other : t ≠ s) {j v c : Json} (held : j.child t = some c) :
    (j.put s v).child t = some c := by
  cases j with
  | obj ms =>
      cases t with
      | index i => simp [child] at held
      | key l =>
          cases s with
          | index i => exact held
          | key k =>
              have apart : l ≠ k := fun same => other (congrArg Seg.key same)
              simpa only [put, child, getMember_setMember_ne apart] using held
  | arr items =>
      cases t with
      | key l => simp [child] at held
      | index i =>
          cases s with
          | key k => exact held
          | index n =>
              have apart : n ≠ i := fun same => other (congrArg Seg.index same.symm)
              simp only [child] at held
              simp only [put]
              split
              · simpa only [child, List.getElem?_set_ne apart] using held
              · split
                · have inside : i < items.length := (List.getElem?_eq_some_iff.mp held).1
                  simpa only [child, List.getElem?_append_left inside] using held
                · exact held
  | _ => simp [child] at held

/-- No other child changes, and none comes in its place. -/
theorem child_put_other {s t : Seg} (other : t ≠ s) (j v : Json) :
    (j.put s v).child t = j.child t := by
  cases held : j.child t with
  | some c => exact child_put_ne other held
  | none =>
      cases j with
      | obj ms =>
          cases s with
          | index i => exact held
          | key k =>
              cases t with
              | index i => rfl
              | key l =>
                  have apart : l ≠ k := fun same => other (congrArg Seg.key same)
                  simpa only [put, child, getMember_setMember_ne apart] using held
      | arr items =>
          cases s with
          | key k => exact held
          | index n =>
              cases t with
              | key l =>
                  simp only [put]
                  repeat' split
                  all_goals rfl
              | index i =>
                  have apart : n ≠ i := fun same => other (congrArg Seg.index same.symm)
                  have outside : items.length ≤ i := List.getElem?_eq_none_iff.mp held
                  simp only [put]
                  split
                  · simpa only [child, List.getElem?_set_ne apart] using held
                  · split
                    · next last =>
                        apply List.getElem?_eq_none
                        rw [List.length_append, List.length_singleton]
                        omega
                    · exact held
      | _ => exact held

theorem child_put {s : Seg} {j v c : Json} (held : j.child s = some c) :
    (j.put s v).child s = some v := by
  cases j with
  | obj ms =>
      cases s with
      | index i => simp [child] at held
      | key k => simp [put, child]
  | arr items =>
      cases s with
      | key k => simp [child] at held
      | index i =>
          have inside : i < items.length := (List.getElem?_eq_some_iff.mp held).1
          simp [put, child, inside]
  | _ => simp [child] at held

@[simp] theorem child_put_key (ms : List (Str × Json)) (k : Str) (v : Json) :
    ((Json.obj ms).put (.key k) v).child (.key k) = some v := by
  simp [put, child]

theorem child_put_index {items : List Json} {i : Nat} (inside : i ≤ items.length) (v : Json) :
    ((Json.arr items).put (.index i) v).child (.index i) = some v := by
  simp only [put]
  split
  · rename_i held
    simp [child, held]
  · split
    · rename_i last
      simp [child, last]
    · omega

/-! ### Depth along a path -/

theorem depth_getElem? {items : List Json} {i : Nat} {c : Json} (held : items[i]? = some c) :
    c.depth ≤ depthItems items := by
  induction items generalizing i with
  | nil => simp at held
  | cons j js ih =>
      rw [depthItems]
      cases i with
      | zero =>
          obtain rfl := Option.some.inj held
          exact Nat.le_max_left _ _
      | succ i =>
          have rest := ih (i := i) (by simpa using held)
          omega

theorem depth_child {j c : Json} {s : Seg} (held : j.child s = some c) :
    c.depth + 1 ≤ j.depth := by
  cases j with
  | arr items =>
      cases s with
      | key k => cases held
      | index i => exact Nat.succ_le_succ (depth_getElem? held)
  | obj ms =>
      cases s with
      | key k => exact Nat.succ_le_succ (depth_getMember held)
      | index i => cases held
  | _ => cases held

theorem depthItems_set (items : List Json) (i : Nat) (v : Json) :
    depthItems (items.set i v) ≤ max v.depth (depthItems items) := by
  induction items generalizing i with
  | nil => simp [depthItems]
  | cons j js ih =>
      cases i with
      | zero =>
          simp only [List.set_cons_zero, depthItems]
          omega
      | succ i =>
          have rest := ih i
          simp only [List.set_cons_succ, depthItems]
          omega

theorem depthItems_append (items more : List Json) :
    depthItems (items ++ more) = max (depthItems items) (depthItems more) := by
  induction items with
  | nil => simp [depthItems]
  | cons j js ih =>
      simp only [List.cons_append, depthItems, ih]
      omega

theorem depth_put (s : Seg) (v j : Json) : (j.put s v).depth ≤ max j.depth (v.depth + 1) := by
  cases j with
  | obj ms =>
      cases s with
      | key k =>
          have set := depthMembers_setMember k v ms
          simp only [put, depth]
          omega
      | index i => exact Nat.le_max_left _ _
  | arr items =>
      cases s with
      | key k => exact Nat.le_max_left _ _
      | index i =>
          have set := depthItems_set items i v
          have added := depthItems_append items [v]
          simp only [depthItems] at added
          simp only [put]
          split
          · simp only [depth]
            omega
          · split
            · simp only [depth]
              omega
            · exact Nat.le_max_left _ _
  | _ => exact Nat.le_max_left _ _

/-! ## Writes through a member

`assign` is `j[k] = ...`: a null becomes an object, and a document of another kind is left as it
is. `assignIn` is the same on a handle that is already an object or nothing. -/

def assign (k : Str) (f : Json → Json) : Json → Json
  | .obj ms => .obj (setMember k (f ((getMember k ms).getD .null)) ms)
  | .null => .obj [(k, f .null)]
  | j => j

def assignIn (k : Str) (f : Json → Json) (j : Json) : Json :=
  if j.isObject then j.assign k f else j

/-- An edit of a member that is there. -/
def within (k : Str) (f : Json → Json) : Json → Json
  | .obj ms =>
      match getMember k ms with
      | none => .obj ms
      | some v => .obj (setMember k (f v) ms)
  | j => j

/-- `as<JsonObject>().remove(k)`. -/
def remove (k : Str) : Json → Json
  | .obj ms => .obj (removeMember k ms)
  | j => j

theorem depth_assign {k : Str} {f : Json → Json} {n : Nat}
    (deepens : ∀ j, (f j).depth ≤ max j.depth n) (j : Json) :
    (j.assign k f).depth ≤ max j.depth (n + 1) := by
  cases j with
  | obj ms =>
      have set := depthMembers_setMember k (f ((getMember k ms).getD .null)) ms
      have placed := deepens ((getMember k ms).getD .null)
      cases held : getMember k ms with
      | none =>
          simp only [held, Option.getD_none, depth] at set placed
          simp only [assign, held, Option.getD_none, depth]
          omega
      | some v =>
          have inner := depth_getMember held
          simp only [held, Option.getD_some] at set placed
          simp only [assign, held, Option.getD_some, depth]
          omega
  | null =>
      have placed := deepens .null
      simp only [depth] at placed
      simp only [assign, depth, depthMembers]
      omega
  | _ => exact Nat.le_max_left _ _

theorem depth_within {k : Str} {f : Json → Json} (keeps : ∀ j, (f j).depth ≤ j.depth)
    (j : Json) : (j.within k f).depth ≤ j.depth := by
  cases j with
  | obj ms =>
      simp only [within]
      split
      · exact Nat.le_refl _
      · rename_i v held
        have set := depthMembers_setMember k (f v) ms
        have placed := keeps v
        have inner := depth_getMember held
        simp only [depth]
        omega
  | _ => exact Nat.le_refl _

theorem depth_remove (k : Str) (j : Json) : (j.remove k).depth ≤ j.depth := by
  cases j with
  | obj ms => exact Nat.succ_le_succ (depthMembers_removeMember k ms)
  | _ => exact Nat.le_refl _

/-! ## The frame of an edit -/

/-- What is held apart from every target is held after. -/
def Keeps (T : List Path) (a b : Json) : Prop :=
  ∀ p v, (∀ q ∈ T, Apart p q) → a.atPath p = some v → b.atPath p = some v

namespace Keeps

variable {T : List Path} {a b c : Json}

theorem refl (T : List Path) (a : Json) : Keeps T a a := fun _ _ _ held => held

theorem trans (first : Keeps T a b) (second : Keeps T b c) : Keeps T a c :=
  fun p v apart held => second p v apart (first p v apart held)

theorem mono {more : List Path} (sub : ∀ q ∈ T, q ∈ more) (keeps : Keeps T a b) :
    Keeps more a b :=
  fun p v apart held => keeps p v (fun q mem => apart q (sub q mem)) held

/-- A frame from the children: the document itself is on the way to some target. -/
theorem of_children (some_target : T ≠ [])
    (each : ∀ s p v, (∀ q ∈ T, Apart (s :: p) q) →
      (a.child s).bind (fun c => c.atPath p) = some v →
        (b.child s).bind (fun c => c.atPath p) = some v) : Keeps T a b := by
  intro p v apart held
  cases p with
  | nil =>
      obtain ⟨q, mem⟩ := List.exists_mem_of_ne_nil T some_target
      exact absurd (apart q mem) (by simp [Apart])
  | cons s p => exact each s p v apart held

/-- A leaf holds nothing apart from a target. -/
theorem of_leaf (some_target : T ≠ []) (leaf : ∀ s, a.child s = none) :
    Keeps T a b := by
  refine of_children some_target ?_
  intro s p v _ held
  simp [leaf s] at held

/-- The root as the target leaves nothing to keep. -/
theorem root : Keeps [[]] a b := by
  intro p v apart
  exact absurd (apart [] (by simp)) (by cases p <;> simp [Apart])

theorem apart_tail {s : Seg} {p q : Path} (apart : Apart (s :: p) (s :: q)) : Apart p q := by
  simpa [Apart] using apart

/-- An edit under one child: the targets below it, seen from above. -/
theorem under {s : Seg} {v : Json} (some_target : T ≠ [])
    (below : ∀ c, a.child s = some c → Keeps T c v) :
    Keeps (T.map (s :: ·)) a (a.put s v) := by
  refine of_children (by simpa using some_target) ?_
  intro t p w apart held
  by_cases same : t = s
  · subst same
    obtain ⟨c, found, held⟩ := Option.bind_eq_some_iff.mp held
    rw [child_put found]
    refine below c found p w ?_ held
    intro q mem
    exact apart_tail (apart (t :: q) (List.mem_map_of_mem mem))
  · obtain ⟨c, found, held⟩ := Option.bind_eq_some_iff.mp held
    rw [child_put_ne same found]
    exact held

/-- One child replaced or added. -/
theorem put (s : Seg) (v : Json) : Keeps [[s]] a (a.put s v) := by
  refine of_children (by simp) ?_
  intro t p w apart held
  have other : t ≠ s := by
    have := apart [s] (by simp)
    simpa [Apart] using this
  obtain ⟨c, found, held⟩ := Option.bind_eq_some_iff.mp held
  rw [child_put_ne other found]
  exact held

theorem assign {k : Str} {f : Json → Json} (some_target : T ≠ [])
    (below : ∀ c, Keeps T c (f c)) :
    Keeps (T.map (Seg.key k :: ·)) a (a.assign k f) := by
  have above : T.map (Seg.key k :: ·) ≠ [] := by simpa using some_target
  cases a with
  | obj ms =>
      refine under (a := .obj ms) (s := .key k) (v := f ((getMember k ms).getD .null))
        some_target ?_
      intro c found
      simp only [child] at found
      rw [found]
      exact below c
  | null => exact of_leaf above fun s => by cases s <;> rfl
  | _ => exact refl _ _

theorem assignIn {k : Str} {f : Json → Json} (some_target : T ≠ [])
    (below : ∀ c, Keeps T c (f c)) :
    Keeps (T.map (Seg.key k :: ·)) a (a.assignIn k f) := by
  simp only [Json.assignIn]
  split
  · exact assign some_target below
  · exact refl _ _

/-- An edit of a member that is made an object first: a member of another kind is lost whole. -/
theorem assignIn_made {k : Str} {f : Json → Json} (some_target : T ≠ [])
    (each : ∀ ms, Keeps T (.obj ms) (f (.obj ms))) :
    Keeps (if (a.member k).isObject then T.map (Seg.key k :: ·) else [[.key k]]) a
      (a.assignIn k fun m => f (if m.isObject then m else .obj [])) := by
  split
  · rename_i isObj
    cases a with
    | obj ms =>
        refine under (a := .obj ms) (s := .key k) some_target ?_
        intro m found
        simp only [child] at found
        simp only [member, found, Option.getD_some] at isObj
        simp only [found, Option.getD_some, isObj, if_true]
        cases m with
        | obj ns => exact each ns
        | _ => simp [isObject] at isObj
    | _ => exact refl _ _
  · exact assignIn (T := [[]]) (by simp) fun _ => root

theorem within {k : Str} {f : Json → Json} (some_target : T ≠ [])
    (below : ∀ c, Keeps T c (f c)) :
    Keeps (T.map (Seg.key k :: ·)) a (a.within k f) := by
  cases a with
  | obj ms =>
      simp only [Json.within]
      split
      · exact refl _ _
      · rename_i v found
        refine under (a := .obj ms) (s := .key k) (v := f v) some_target ?_
        intro c same
        simp only [child, found] at same
        obtain rfl := Option.some.inj same
        exact below v
  | _ => exact refl _ _

theorem remove (k : Str) : Keeps [[.key k]] a (a.remove k) := by
  cases a with
  | obj ms =>
      refine of_children (by simp) ?_
      intro t p w apart held
      cases t with
      | index i => simp [child] at held
      | key l =>
          have other : l ≠ k := by
            have := apart [.key k] (by simp)
            simpa [Apart] using this
          simpa only [Json.remove, child, getMember_removeMember_ne other] using held
  | _ => exact refl _ _

/-- Two objects with the same members but for some keys. -/
theorem of_members {ks : List Str} (some_key : ks ≠ []) {ms ns : List (Str × Json)}
    (same : ∀ k, k ∉ ks → getMember k ms = getMember k ns) :
    Keeps (ks.map fun k => [.key k]) (.obj ms) (.obj ns) := by
  refine of_children (by simpa using some_key) ?_
  intro s p v apart held
  cases s with
  | index i => simp [child] at held
  | key k =>
      have other : k ∉ ks := by
        intro mem
        have := apart [.key k] (List.mem_map_of_mem mem)
        simp [Apart] at this
      simpa only [child, same k other] using held

/-- A target above the one that is known. -/
theorem above {q r : Path} (keeps : Keeps [q ++ r] a b) : Keeps [q] a b := by
  intro p v apart held
  refine keeps p v ?_ held
  intro q' mem
  obtain rfl := List.mem_singleton.mp mem
  exact (apart q (by simp)).extend r

/-- Items added at the end. -/
theorem append (items more : List Json) (i : Nat) :
    Keeps [[.index i]] (.arr items) (.arr (items ++ more)) := by
  refine of_children (by simp) ?_
  intro s p v _ held
  cases s with
  | key k => simp [child] at held
  | index n =>
      obtain ⟨c, found, held⟩ := Option.bind_eq_some_iff.mp held
      simp only [child] at found
      have inside : n < items.length := (List.getElem?_eq_some_iff.mp found).1
      simpa [child, List.getElem?_append_left inside, found] using held

end Keeps

end Json
