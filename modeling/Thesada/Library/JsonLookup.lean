import Thesada.Library.Json

/-!
# Lookups down a document

A lookup takes a document down a list of segments: to a member of an object, an element of an
array, or null where there is none. Which index a segment spells at an array is a parameter. Two
readings of an index look up the same in all documents when they agree below the size of the
largest array; behind the deepest nesting every lookup is null.
-/

open CString

namespace Json

def readAt (index : Str → Option Nat) (j : Json) (tok : Str) : Json :=
  match j with
  | .obj ms => (getMember tok ms).getD .null
  | .arr items => ((index tok).bind fun i => items[i]?).getD .null
  | _ => .null

def lookup (index : Str → Option Nat) (toks : List Str) (j : Json) : Json :=
  toks.foldl (readAt index) j

/-- No array of the document has more than `room` elements. -/
def Roomy (room : Nat) (j : Json) : Prop :=
  ∀ p items, j.atPath p = some (.arr items) → items.length ≤ room

/-- Two readings of an index agree on a segment in all arrays of up to `room` elements. -/
def AgreeBelow (room : Nat) (one two : Str → Option Nat) (tok : Str) : Prop :=
  ∀ i < room, one tok = some i ↔ two tok = some i

section

variable {index one two : Str → Option Nat} {toks : List Str} {room deep : Nat} {j : Json}

@[simp] theorem lookup_nil (j : Json) : lookup index [] j = j := rfl

@[simp] theorem lookup_cons (tok : Str) (toks : List Str) (j : Json) :
    lookup index (tok :: toks) j = lookup index toks (readAt index j tok) := rfl

theorem lookup_append (toks more : List Str) (j : Json) :
    lookup index (toks ++ more) j = lookup index more (lookup index toks j) :=
  List.foldl_append

@[simp] theorem lookup_null (toks : List Str) : lookup index toks .null = .null := by
  induction toks with
  | nil => rfl
  | cons tok toks ih => exact ih

/-- A segment leads to a child or to null. -/
theorem readAt_child (index : Str → Option Nat) (j : Json) (tok : Str) :
    readAt index j tok = .null ∨ ∃ s, j.child s = some (readAt index j tok) := by
  cases j with
  | obj ms =>
      cases found : getMember tok ms with
      | none => exact .inl (by simp [readAt, found])
      | some c => exact .inr ⟨.key tok, by simp [readAt, child, found]⟩
  | arr items =>
      cases found : (index tok).bind fun i => items[i]? with
      | none => exact .inl (by simp [readAt, found])
      | some c =>
          obtain ⟨i, -, held⟩ := Option.bind_eq_some_iff.mp found
          exact .inr ⟨.index i, by simp [readAt, child, found, held]⟩
  | _ => exact .inl rfl

/-! ## How deep a lookup goes -/

theorem depth_lookup (found : lookup index toks j ≠ .null) :
    toks.length + (lookup index toks j).depth ≤ j.depth := by
  induction toks generalizing j with
  | nil => simp
  | cons tok toks ih =>
      rw [lookup_cons] at found ⊢
      obtain absent | ⟨s, held⟩ := readAt_child index j tok
      · rw [absent, lookup_null] at found
        exact absurd rfl found
      · have here := depth_child held
        have below := ih found
        rw [List.length_cons]
        omega

theorem lookup_deep (index : Str → Option Nat) (far : j.depth < toks.length) :
    lookup index toks j = .null := by
  by_contra found
  have reached := depth_lookup found
  omega

/-! ## Readings that agree -/

theorem Roomy.child {s : Seg} {c : Json} (roomy : Roomy room j) (held : j.child s = some c) :
    Roomy room c := by
  intro p items found
  refine roomy (s :: p) items ?_
  rw [atPath, held]
  exact found

theorem Roomy.of_children (whole : ∀ items, j = .arr items → items.length ≤ room)
    (below : ∀ s c, j.child s = some c → Roomy room c) : Roomy room j := by
  intro p items found
  cases p with
  | nil => exact whole items (Option.some.inj found)
  | cons s p =>
      obtain ⟨c, held, found⟩ := Option.bind_eq_some_iff.mp found
      exact below s c held p items found

theorem Roomy.scalar (other : ∀ items, j ≠ .arr items) (leaf : ∀ s, j.child s = none) :
    Roomy room j := by
  refine .of_children ?_ ?_
  · intro items same
    exact absurd same (other items)
  · intro s c held
    rw [leaf] at held
    cases held

theorem Roomy.readAt (roomy : Roomy room j) (index : Str → Option Nat) (tok : Str) :
    Roomy room (readAt index j tok) := by
  obtain absent | ⟨s, held⟩ := readAt_child index j tok
  · rw [absent]
    exact .scalar (fun _ => Json.noConfusion) fun _ => rfl
  · exact roomy.child held

theorem readAt_congr (agree : AgreeBelow room one two tok) (roomy : Roomy room j) :
    readAt one j tok = readAt two j tok := by
  cases j with
  | arr items =>
      have size : items.length ≤ room := roomy [] items rfl
      have same : ((one tok).bind fun i => items[i]?) = (two tok).bind fun i => items[i]? := by
        apply Option.ext
        intro c
        simp only [Option.bind_eq_some_iff]
        constructor
        · rintro ⟨i, reads, held⟩
          have inside := (List.getElem?_eq_some_iff.mp held).1
          exact ⟨i, (agree i (Nat.lt_of_lt_of_le inside size)).mp reads, held⟩
        · rintro ⟨i, reads, held⟩
          have inside := (List.getElem?_eq_some_iff.mp held).1
          exact ⟨i, (agree i (Nat.lt_of_lt_of_le inside size)).mpr reads, held⟩
      simp only [Json.readAt, same]
  | _ => rfl

theorem lookup_congr (agree : ∀ tok ∈ toks, AgreeBelow room one two tok) (roomy : Roomy room j) :
    lookup one toks j = lookup two toks j := by
  induction toks generalizing j with
  | nil => rfl
  | cons tok toks ih =>
      rw [lookup_cons, lookup_cons, readAt_congr (agree tok List.mem_cons_self) roomy]
      exact ih (fun t mem => agree t (List.mem_cons_of_mem tok mem)) (roomy.readAt two tok)

/-! ## A document for a lookup -/

/-- Objects of one member, one inside the other. -/
def nest (ks : List Str) (leaf : Json) : Json := ks.foldr (fun k j => .obj [(k, j)]) leaf

theorem nest_cons (k : Str) (ks : List Str) (leaf : Json) :
    nest (k :: ks) leaf = .obj [(k, nest ks leaf)] := rfl

theorem lookup_nest (ks : List Str) (leaf : Json) : lookup index ks (nest ks leaf) = leaf := by
  induction ks with
  | nil => rfl
  | cons k ks ih => simpa [nest, Json.readAt, getMember] using ih

theorem depth_nest (ks : List Str) (leaf : Json) :
    (nest ks leaf).depth = ks.length + leaf.depth := by
  induction ks with
  | nil => simp [nest]
  | cons k ks ih =>
      have inner : (nest (k :: ks) leaf).depth = (nest ks leaf).depth + 1 := by
        simp [nest, depth, depthMembers]
      rw [inner, ih, List.length_cons]
      omega

theorem Roomy.nest {leaf : Json} (ks : List Str) (roomy : Roomy room leaf) :
    Roomy room (nest ks leaf) := by
  induction ks with
  | nil => exact roomy
  | cons k ks ih =>
      refine .of_children ?_ ?_
      · intro items same
        cases same
      · intro s c held
        cases s with
        | index i => cases held
        | key l =>
            simp only [Json.nest, List.foldr_cons, Json.child, getMember] at held
            split at held
            · rw [← Option.some.inj held]
              exact ih
            · cases held

theorem roomy_true (room : Nat) : Roomy room (.bool true) :=
  .scalar (fun _ => Json.noConfusion) fun _ => rfl

/-- Element `i` behind nulls. -/
def element (i : Nat) (leaf : Json) : Json := .arr (List.replicate i .null ++ [leaf])

theorem readAt_element (i : Nat) (leaf : Json) (tok : Str) :
    readAt index (element i leaf) tok = if index tok = some i then leaf else .null := by
  cases reads : index tok with
  | none => simp [element, readAt, reads]
  | some n =>
      simp only [element, readAt, reads, Option.bind_some, Option.some.injEq]
      by_cases same : n = i
      · simp [same]
      · rw [if_neg same]
        obtain before | after := Nat.lt_or_gt_of_ne same
        · simp [List.getElem?_append_left, before]
        · have past : (List.replicate i Json.null ++ [leaf]).length ≤ n := by
            simp only [List.length_append, List.length_replicate, List.length_singleton]
            omega
          simp [List.getElem?_eq_none past]

theorem depth_element (i : Nat) (leaf : Json) : (element i leaf).depth = leaf.depth + 1 := by
  have nulls : depthItems (List.replicate i .null) = 0 := by
    induction i with
    | zero => rfl
    | succ i ih => simp [List.replicate_succ, depthItems, depth, ih]
  simp [element, depth, depthItems_append, nulls, depthItems]

theorem Roomy.element {i : Nat} {leaf : Json} (inside : i < room) (roomy : Roomy room leaf) :
    Roomy room (element i leaf) := by
  refine .of_children ?_ ?_
  · intro items same
    obtain rfl := Json.arr.inj same
    simp only [List.length_append, List.length_replicate, List.length_singleton]
    omega
  · intro s c held
    cases s with
    | key k => cases held
    | index n =>
        obtain null | last := List.mem_append.mp (List.mem_of_getElem? held)
        · rw [List.eq_of_mem_replicate null]
          exact .scalar (fun _ => Json.noConfusion) fun _ => rfl
        · rw [List.mem_singleton.mp last]
          exact roomy

/-- `true` for the segments `pre`, then element `i`, then the segments `post`. -/
def behind (pre : List Str) (i : Nat) (post : List Str) : Json :=
  nest pre (element i (nest post (.bool true)))

theorem behind_cons (k : Str) (pre : List Str) (i : Nat) (post : List Str) :
    behind (k :: pre) i post = .obj [(k, behind pre i post)] := rfl

theorem lookup_behind (pre : List Str) (i : Nat) (tok : Str) (post : List Str) :
    lookup index (pre ++ tok :: post) (behind pre i post) =
      if index tok = some i then .bool true else .null := by
  rw [behind, lookup_append, lookup_nest, lookup_cons, readAt_element]
  split
  · exact lookup_nest post _
  · exact lookup_null post

theorem depth_behind (pre : List Str) (i : Nat) (post : List Str) :
    (behind pre i post).depth = pre.length + (post.length + 1) := by
  rw [behind, depth_nest, depth_element, depth_nest]
  rfl

theorem Roomy.behind {i : Nat} (pre : List Str) (inside : i < room) (post : List Str) :
    Roomy room (behind pre i post) :=
  .nest pre (.element inside (.nest post (roomy_true room)))

theorem roomy_empty (room : Nat) : Roomy room (.obj []) := by
  refine .scalar (fun _ => Json.noConfusion) ?_
  intro s
  cases s with
  | key k => rfl
  | index i => rfl

/-! ## When two readings agree -/

/-- A lookup is null in all documents exactly when it goes deeper than they do. -/
theorem lookup_null_iff (nested : 0 < deep) :
    (∀ ms, (Json.obj ms).depth ≤ deep → Roomy room (.obj ms) →
      lookup index toks (.obj ms) = .null) ↔ deep < toks.length := by
  constructor
  · intro always
    by_contra shallow
    cases toks with
    | nil =>
        have root := always [] nested (roomy_empty room)
        cases root
    | cons k ks =>
        have inside : (nest (k :: ks) (.bool true)).depth ≤ deep := by
          rw [depth_nest]
          exact Nat.not_lt.mp shallow
        have found := always [(k, nest ks (.bool true))] inside (.nest (k :: ks) (roomy_true room))
        rw [← nest_cons, lookup_nest] at found
        cases found
  · intro far ms shallow _
    exact lookup_deep index (Nat.lt_of_le_of_lt shallow far)

/-- Two readings look up the same in all documents exactly when they agree on every segment but
the first, which meets an object, or the lookup goes deeper than the documents do. -/
theorem lookup_iff :
    (∀ ms, (Json.obj ms).depth ≤ deep → Roomy room (.obj ms) →
      lookup one toks (.obj ms) = lookup two toks (.obj ms)) ↔
      deep < toks.length ∨ ∀ tok ∈ toks.drop 1, AgreeBelow room one two tok := by
  constructor
  · intro same
    by_cases far : deep < toks.length
    · exact .inl far
    · refine .inr ?_
      intro tok mem i inside
      cases toks with
      | nil => cases mem
      | cons k ks =>
          obtain ⟨pre, post, rfl⟩ := List.append_of_mem mem
          have shallow : (behind (k :: pre) i post).depth ≤ deep := by
            rw [depth_behind]
            simp only [List.length_cons, List.length_append] at far ⊢
            omega
          have found := same [(k, behind pre i post)] shallow (.behind (k :: pre) inside post)
          rw [← behind_cons, ← List.cons_append, lookup_behind, lookup_behind] at found
          constructor
          · intro first
            by_contra second
            simp [first, second] at found
          · intro second
            by_contra first
            simp [first, second] at found
  · rintro (far | agree) ms shallow roomy
    · have past := Nat.lt_of_le_of_lt shallow far
      rw [lookup_deep one past, lookup_deep two past]
    · cases toks with
      | nil => rfl
      | cons k ks =>
          have first : readAt two (.obj ms) k = readAt one (.obj ms) k := rfl
          rw [lookup_cons, lookup_cons, first]
          exact lookup_congr agree (roomy.readAt one k)

end

end Json
