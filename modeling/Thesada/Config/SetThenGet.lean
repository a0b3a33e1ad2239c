import Thesada.Config.GetCommand
import Thesada.Config.HeldPrefix
import Thesada.Config.SetNumbers

/-!
# `config.set`, then `config.get`

`config.set` cuts its key at the last dot and takes what is behind it as the last segment, also
when that is empty; `config.get` drops all empty segments. In between the file is written, read
back and a held boot prefix laid over it.
-/

namespace Thesada.Config

open CString Json
open ConfigUnit (docPrefix)

/-! ## Keys -/

/-- The segments of a key as `config.set` takes them; the last one can be empty. -/
def segments (key : Str) : List Str :=
  match splitLastDot key with
  | none => []
  | some (parentPath, finalKey) => tokens parentPath ++ [finalKey]

section

variable {key parentPath finalKey : Str}

theorem splitLastDot_parts (split : splitLastDot key = some (parentPath, finalKey)) :
    key = parentPath ++ '.' :: finalKey ∧ '.' ∉ finalKey := by
  rw [splitLastDot] at split
  split at split
  · next dot =>
      obtain ⟨rfl, rfl⟩ := Prod.mk.inj (Option.some.inj split)
      have mem : '.' ∈ key.reverse := List.mem_reverse.mpr dot
      constructor
      · obtain ⟨rest, isRest⟩ :
            ∃ rest, key.reverse.dropWhile (· ≠ '.') = '.' :: rest := by
          cases found : key.reverse.dropWhile (· ≠ '.') with
          | nil =>
              have none := List.dropWhile_eq_nil_iff.mp found '.' mem
              simp at none
          | cons c rest =>
              have head := List.head?_dropWhile_not (· ≠ '.') key.reverse
              rw [found] at head
              exact ⟨rest, by simpa using head⟩
        have whole := List.takeWhile_append_dropWhile (p := (· ≠ '.')) (l := key.reverse)
        obtain ⟨last, isLast⟩ : ∃ t, key.reverse.takeWhile (· ≠ '.') = t := ⟨_, rfl⟩
        rw [isRest, isLast] at whole
        rw [isRest, isLast]
        apply List.reverse_injective
        rw [← whole]
        simp
      · intro inside
        have other := List.mem_takeWhile_imp (List.mem_reverse.mp inside)
        simp at other
  · cases split

theorem tokens_snoc (whole : '.' ∉ finalKey) :
    tokens (parentPath ++ '.' :: finalKey) =
      tokens parentPath ++ if finalKey = [] then [] else [finalKey] := by
  rw [tokens, List.splitOn_append_cons_self, List.filter_append, List.splitOn_eq_singleton whole]
  by_cases empty : finalKey = []
  · simp [tokens, empty]
  · simp [tokens, empty]

/-- A key that does not end with a dot has the same segments for `config.get`. -/
theorem tokens_eq (split : splitLastDot key = some (parentPath, finalKey)) :
    tokens key = if finalKey = [] then tokens parentPath else segments key := by
  obtain ⟨whole, last⟩ := splitLastDot_parts split
  have parts : segments key = tokens parentPath ++ [finalKey] := by rw [segments, split]
  rw [parts, whole, tokens_snoc last]
  split
  · rw [List.append_nil]
  · rfl

theorem getLast?_dot (split : splitLastDot key = some (parentPath, finalKey)) :
    key.getLast? = some '.' ↔ finalKey = [] := by
  obtain ⟨whole, last⟩ := splitLastDot_parts split
  rw [whole, List.getLast?_append]
  cases finalKey with
  | nil => simp
  | cons c rest =>
      refine iff_of_false ?_ (List.cons_ne_nil _ _)
      intro dot
      have isLast : ('.' :: c :: rest).getLast? = (c :: rest).getLast? := List.getLast?_cons_cons
      rw [isLast] at dot
      have mem : '.' ∈ c :: rest := by
        apply List.mem_of_getLast?
        cases found : (c :: rest).getLast? with
        | none => simp at found
        | some d =>
            rw [found] at dot
            exact dot
      exact last mem

end

/-! ## The value is found again -/

section

variable {parentPath finalKey walked : Str} {toks rest : List Str} {parent after j : Json}

theorem getWalk_cons {tok : Str} {c : Json} (step : getStep parent tok = .ok c) :
    getWalk (tok :: toks) parent = getWalk toks c := by
  rw [getWalk, step]
  rfl

theorem getWalk_one {tok : Str} : getWalk [tok] parent = getStep parent tok := by
  rw [getWalk]
  cases getStep parent tok with
  | error text => rfl
  | ok c => rfl

/-- A segment finds what was put in its place. -/
theorem getStep_put {tok : Str} {s : Seg} {below : Json} (seg : segOf parent tok = some s)
    (lands : (parent.put s below).child s = some below) :
    getStep (parent.put s below) tok = .ok below := by
  cases parent with
  | arr items =>
      simp only [segOf, Option.map_eq_some_iff] at seg
      obtain ⟨i, parsed, rfl⟩ := seg
      obtain ⟨items', isArr⟩ : ∃ items', (Json.arr items).put (.index i) below = .arr items' := by
        simp only [put]
        repeat' split
        all_goals exact ⟨_, rfl⟩
      rw [isArr] at lands ⊢
      rw [child] at lands
      simp only [getStep, parsed, lands]
  | obj ms =>
      obtain rfl := Option.some.inj seg
      simp [put, getStep]
  | _ => cases seg

theorem walkTo_get (walks : walkTo (placeValue parentPath finalKey (.value j)) walked toks parent =
    .ok after) : getWalk (toks ++ [finalKey]) after = .ok j := by
  induction toks generalizing walked parent after with
  | nil =>
      obtain ⟨s, seg, rfl, found⟩ := placeValue_put walks
      rw [List.nil_append, getWalk_one]
      exact getStep_put seg found
  | cons tok rest ih =>
      obtain ⟨s, c, below, seg, rfl, behind, held⟩ := walkTo_cons walks
      rw [List.cons_append, getWalk_cons (getStep_put seg (walkTo_lands seg held))]
      exact ih behind

/-! ## Depth -/

theorem getStep_depth {tok : Str} {c : Json} (step : getStep parent tok = .ok c) :
    c.depth + 1 ≤ parent.depth := by
  cases parent with
  | arr items =>
      simp only [getStep] at step
      split at step
      · cases step
      · split at step
        · cases step
        · next found =>
            obtain rfl := Except.ok.inj step
            exact Nat.succ_le_succ (depth_getElem? found)
  | obj ms =>
      obtain rfl := Except.ok.inj step
      cases found : getMember tok ms with
      | none => exact Nat.succ_le_succ (Nat.zero_le _)
      | some v => exact Nat.succ_le_succ (depth_getMember found)
  | _ => cases step

theorem getWalk_split {tok : Str} (walk : getWalk (tok :: toks) parent = .ok after) :
    ∃ c, getStep parent tok = .ok c ∧ getWalk toks c = .ok after := by
  rw [getWalk] at walk
  cases step : getStep parent tok with
  | error text =>
      rw [step] at walk
      cases walk
  | ok c =>
      rw [step] at walk
      exact ⟨c, rfl, walk⟩

/-- Every segment goes one level down. -/
theorem getWalk_depth (walk : getWalk toks parent = .ok after) :
    toks.length + after.depth ≤ parent.depth := by
  induction toks generalizing parent with
  | nil =>
      obtain rfl := Except.ok.inj walk
      simp
  | cons tok rest ih =>
      obtain ⟨c, step, behind⟩ := getWalk_split walk
      have here := getStep_depth step
      have below := ih behind
      rw [List.length_cons]
      omega

/-- An edit deepens a document no more than to the end of its value. -/
theorem walkTo_depth (walks : walkTo (placeValue parentPath finalKey (.value j)) walked toks
    parent = .ok after) : after.depth ≤ max parent.depth (toks.length + 1 + j.depth) := by
  induction toks generalizing walked parent after with
  | nil =>
      obtain ⟨s, -, rfl, -⟩ := placeValue_put walks
      have placed := depth_put s j parent
      simp only [List.length_nil]
      omega
  | cons tok rest ih =>
      rw [List.length_cons]
      obtain ⟨s, c, below, -, rfl, behind, held⟩ := walkTo_cons walks
      have put := depth_put s below parent
      have deep := ih behind
      obtain found | ⟨-, rfl, -⟩ := held
      · have inner := depth_child found
        omega
      · have fresh : (Json.obj []).depth = 1 := rfl
        omega

/-! ## The frame -/

/-- Every path that parts ways with `path` reads the same. -/
def SameApart (path : Path) (before after : Json) : Prop :=
  ∀ p, Apart p path → after.atPath p = before.atPath p

theorem SameApart.put (s : Seg) (v : Json) : SameApart [s] parent (parent.put s v) := by
  intro p apart
  cases p with
  | nil => exact apart.elim
  | cons t p =>
      have other : t ≠ s := by simpa [Apart] using apart
      rw [atPath, atPath, child_put_other other]

theorem SameApart.under {path : Path} {s : Seg} {before below after : Json}
    (same : SameApart path below after)
    (held : ∀ p, p ≠ [] → (before.child s).bind (fun c => c.atPath p) = below.atPath p)
    (lands : (before.put s after).child s = some after) :
    SameApart (s :: path) before (before.put s after) := by
  intro p apart
  cases p with
  | nil => exact apart.elim
  | cons t p =>
      rw [atPath, atPath]
      by_cases here : t = s
      · subst here
        have inner : Apart p path := Keeps.apart_tail apart
        have some : p ≠ [] := by
          rintro rfl
          exact inner
        rw [lands, held p some, ← same p inner]
        rfl
      · rw [child_put_other here]

theorem atPath_leaf {s : Json} (leaf : ∀ t, s.child t = none) {p : Path} (some : p ≠ []) :
    s.atPath p = none := by
  cases p with
  | nil => exact absurd rfl some
  | cons t p => rw [atPath, leaf t]; rfl

/-- An edit changes nothing apart from its path. -/
theorem walkTo_same (walks : walkTo (placeValue parentPath finalKey (.value j)) walked toks
    parent = .ok after) : SameApart (pathOf finalKey toks parent) parent after := by
  induction toks generalizing walked parent after with
  | nil =>
      obtain ⟨s, seg, rfl, -⟩ := placeValue_put walks
      rw [pathOf_last seg]
      exact .put s j
  | cons tok rest ih =>
      obtain ⟨s, c, below, seg, rfl, behind, held⟩ := walkTo_cons walks
      have lands : (parent.put s below).child s = some below := walkTo_lands seg held
      obtain found | ⟨-, rfl, absent⟩ := held
      · rw [pathOf_child seg found (walkTo_sets behind).named]
        refine (ih behind).under ?_ lands
        intro p _
        rw [found, Option.bind_some]
      · rw [pathOf_new seg absent]
        refine (ih behind).under ?_ lands
        intro p some
        rw [atPath_leaf (fun t => by cases t <;> rfl) some]
        cases found : parent.child s with
        | none => rfl
        | some d =>
            rw [absent d found, Option.bind_some]
            exact atPath_leaf (fun t => by cases t <;> rfl) some

/-! ## The live document after the command -/

theorem getStep_assign {ms : List (Str × Json)} {k tok : Str} (f : Json → Json) :
    getStep ((Json.obj ms).assign k f) tok =
      if tok = k then .ok (f ((getMember k ms).getD .null)) else getStep (.obj ms) tok := by
  rw [assign, getStep]
  split
  · next same =>
      rw [same, getMember_setMember]
      rfl
  · next other =>
      rw [getMember_setMember_ne other]
      rfl

/-- A prefix that something was found below is no string, and none is laid over it. -/
theorem docPrefix_container {ms ns : List (Str × Json)} {x : Json} {rest : List Str}
    (inSection : (getMember K_MQTT ms).getD .null = .obj ns)
    (step : getStep (.obj ns) K_TOPIC_PREFIX = .ok x) (more : rest ≠ [])
    (walk : getWalk rest x = .ok j) : docPrefix (.obj ms) = none := by
  have isChild : (getMember K_TOPIC_PREFIX ns).getD .null = x := Except.ok.inj step
  cases rest with
  | nil => exact absurd rfl more
  | cons tok rest =>
      obtain ⟨y, below, -⟩ := getWalk_split walk
      rw [docPrefix, member, inSection, child]
      cases found : getMember K_TOPIC_PREFIX ns with
      | none =>
          rw [← isChild, found] at below
          cases below
      | some v =>
          rw [found, Option.getD_some] at isChild
          subst isChild
          cases v with
          | str text => cases below
          | _ => rfl

/-- A prefix laid over the document is seen at its own two paths only. -/
theorem getWalk_setPrefix {p : Str} {segs : List Str} (isObject : parent.isObject = true)
    (room : docPrefix parent ≠ none) (noSection : segs ≠ [K_MQTT])
    (noPrefix : segs ≠ [K_MQTT, K_TOPIC_PREFIX]) (some : segs ≠ [])
    (walk : getWalk segs parent = .ok j) : getWalk segs (setPrefix p parent) = .ok j := by
  cases parent with
  | obj ms =>
      cases segs with
      | nil => exact absurd rfl some
      | cons tok rest =>
          obtain ⟨m, step, behind⟩ := getWalk_split walk
          by_cases first : tok = K_MQTT
          · subst first
            have laid : getStep (setPrefix p (.obj ms)) K_MQTT =
                .ok (m.assign K_TOPIC_PREFIX fun _ => .str p) := by
              rw [setPrefix, getStep_assign, if_pos rfl, ← Except.ok.inj step]
            rw [getWalk_cons laid]
            cases rest with
            | nil => exact absurd rfl noSection
            | cons tok rest =>
                obtain ⟨x, step', behind'⟩ := getWalk_split behind
                cases m with
                | obj ns =>
                    by_cases second : tok = K_TOPIC_PREFIX
                    · subst second
                      refine absurd (docPrefix_container (Except.ok.inj step) step' ?_ behind') room
                      rintro rfl
                      exact noPrefix rfl
                    · rw [getWalk, getStep_assign, if_neg second, step']
                      exact behind'
                | arr items => exact behind
                | _ => cases step'
          · rw [getWalk, setPrefix, getStep_assign, if_neg first, step]
            exact behind
  | _ => cases isObject

theorem holdTopicPrefix_live (c : ConfigUnit) (p : Str) :
    (c.holdTopicPrefix p).1.live = c.live ∨
      docPrefix c.live ≠ none ∧ (c.holdTopicPrefix p).1.live = setPrefix p c.live := by
  simp only [ConfigUnit.holdTopicPrefix]
  cases held : docPrefix c.live with
  | none => exact .inl rfl
  | some disk =>
      cases disk with
      | none =>
          dsimp only
          split
          · exact .inr ⟨by simp, rfl⟩
          · exact .inl rfl
      | some disk =>
          dsimp only
          split
          · exact .inr ⟨by simp, rfl⟩
          · exact .inl rfl

end

/-- `restoreBootPrefix` leaves the key's own value alone: nothing is held, or the key is spelled as
one of the two it knows, or it names something else. -/
def PrefixSpared (c : ConfigUnit) (key : Str) : Prop :=
  c.held = none ∨ key = K_MQTT ∨ key = "mqtt.topic_prefix".toList ∨
    segments key ≠ [K_MQTT] ∧ segments key ≠ [K_MQTT, K_TOPIC_PREFIX]

/-- The live document after an edit whose file was read back. -/
theorem commitEdit_live {c c' : ConfigUnit} {key : Str} {edited : Json} {io : SetIo}
    (committed : c.commitEdit key edited io = (c', true)) (lands : io.load.lands = true) :
    let loaded := ((FileText.doc edited).parse).getD .null
    c'.live = loaded ∨ c.held.isSome = true ∧ key ≠ K_MQTT ∧ key ≠ "mqtt.topic_prefix".toList ∧
      docPrefix loaded ≠ none ∧ ∃ p, c'.live = setPrefix p loaded := by
  simp only [LoadIo.lands, Bool.and_eq_true] at lands
  obtain ⟨⟨mounts, opens⟩, reads⟩ := lands
  have landed : io.write.lands = true := by
    simp only [ConfigUnit.commitEdit, writeFile_eq] at committed
    cases landed : io.write.lands with
    | true => rfl
    | false => simp [landed] at committed
  simp only [ConfigUnit.commitEdit, writeFile_eq, landed, if_true, Prod.mk.injEq, and_true]
    at committed
  have read : (({ c with file := some (.doc edited) } : ConfigUnit).load io.load).live =
      ((FileText.doc edited).parse).getD .null := by
    simp [ConfigUnit.load, mounts, opens, reads]
  rw [← committed]
  cases kept : c.copyBootTopicPrefix TOPIC_PREFIX_CAP with
  | none => exact .inl read
  | some p =>
      have held : c.held.isSome = true := by
        cases isHeld : c.held with
        | none => simp [ConfigUnit.copyBootTopicPrefix, isHeld] at kept
        | some h => rfl
      simp only [ConfigUnit.restoreBootPrefix]
      split
      · exact .inl read
      · next other =>
          obtain ⟨noSection, noPrefix⟩ := not_or.mp other
          obtain same | ⟨room, laid⟩ := holdTopicPrefix_live
            (({ c with file := some (.doc edited) } : ConfigUnit).load io.load) p
          · exact .inl (same.trans read)
          · rw [read] at room laid
            exact .inr ⟨held, noSection, noPrefix, room, p, laid⟩

/-! ## The two commands -/

/-- The step a segment names: an index is the number it spells. -/
def namedSeg (parent : Json) (tok : Str) : Option Seg :=
  match parent with
  | .arr _ => if tok.isEmpty || !tok.all Char.isDigit then none else some (.index (decimal tok))
  | .obj _ => some (.key tok)
  | _ => none

def namedPathOf (finalKey : Str) : List Str → Json → Path
  | [], parent => ((namedSeg parent finalKey).map fun s => [s]).getD []
  | tok :: rest, parent =>
      match namedSeg parent tok with
      | none => []
      | some s =>
          let c := (parent.child s).getD .null
          s :: namedPathOf finalKey rest (if c.isNull then .obj [] else c)

/-- The path a key names in a document. -/
def namedPath (key : Str) (doc : Json) : Path :=
  match splitLastDot key with
  | none => []
  | some (parentPath, finalKey) => namedPathOf finalKey (tokens parentPath) doc

/-- A value that was set is read again, and the file is as it was apart from it. -/
structure SetShown (before after : ConfigUnit) (key : Str) (doc j : Json) : Prop where
  reads : after.configGet key = .ok j
  frame : ∀ p, Apart p (namedPath key doc) → after.fileAt p = before.fileAt p

theorem isObject_put (s : Seg) (v j : Json) : (j.put s v).isObject = j.isObject := by
  cases j with
  | arr items =>
      cases s with
      | key k => rfl
      | index i =>
          simp only [put]
          repeat' split
          all_goals rfl
  | obj ms => cases s <;> rfl
  | _ => rfl

section

variable {parentPath finalKey walked : Str} {toks : List Str} {parent after j : Json}

theorem walkTo_isObject (walks : walkTo (placeValue parentPath finalKey (.value j)) walked toks
    parent = .ok after) : after.isObject = parent.isObject := by
  cases toks with
  | nil =>
      obtain ⟨s, -, rfl, -⟩ := placeValue_put walks
      exact isObject_put s j parent
  | cons tok rest =>
      obtain ⟨s, c, below, -, rfl, -, -⟩ := walkTo_cons walks
      exact isObject_put s below parent

/-- Behind the last dot of a key there is the empty segment only of an object. -/
theorem walkTo_dot (walks : walkTo (placeValue parentPath [] (.value j)) walked [] parent =
    .ok after) : parent.isObject = true := by
  cases parent with
  | obj ms => rfl
  | _ => cases walks

theorem getWalk_null {tok : Str} {toks : List Str} :
    getWalk (tok :: toks) .null ≠ .ok j := by
  intro walk
  obtain ⟨c, step, -⟩ := getWalk_split walk
  cases step

/-- The root of a document that segments lead down from is laid a prefix over without a change of
its kind. -/
theorem setPrefix_isObject {p : Str} {segs : List Str} (some : segs ≠ [])
    (walk : getWalk segs parent = .ok j) : (setPrefix p parent).isObject = parent.isObject := by
  cases parent with
  | null =>
      cases segs with
      | nil => exact absurd rfl some
      | cons tok rest => exact absurd walk getWalk_null
  | _ => rfl

end

theorem readForEdit_depth {file : Option FileText} {io : SetIo} {doc : Json}
    (read : readForEdit file io = .ok doc) :
    file = some (.doc doc) ∧ doc.depth ≤ ARDUINOJSON_DEFAULT_NESTING_LIMIT := by
  obtain ⟨text, isText, parsed⟩ := readForEdit_ok read
  have whole := parse_eq_some parsed
  subst whole
  refine ⟨isText, ?_⟩
  by_contra deep
  rw [FileText.parse, if_neg deep] at parsed
  cases parsed

/-- A commit that is not acknowledged leaves the file alone. -/
theorem commitEdit_refused {c : ConfigUnit} {key : Str} {edited : Json} {io : SetIo}
    (refused : (c.commitEdit key edited io).2 = false) :
    (c.commitEdit key edited io).1.file = c.file := by
  simp only [ConfigUnit.commitEdit, writeFile_eq] at refused ⊢
  cases landed : io.write.lands with
  | false => simp
  | true => simp [landed] at refused

theorem configSet_error {deserializeJson : Reader} {strtof : Strtof} {c c' : ConfigUnit}
    {key arg text : Str} {io : SetIo}
    (refused : c.configSet deserializeJson strtof key arg io = (c', .error text)) :
    c'.file = c.file := by
  simp only [ConfigUnit.configSet] at refused
  split at refused
  · rw [← (Prod.mk.inj refused).1]
  split at refused
  · rw [← (Prod.mk.inj refused).1]
  split at refused
  · rw [← (Prod.mk.inj refused).1]
  split at refused
  · rw [← (Prod.mk.inj refused).1]
  split at refused
  · cases (Prod.mk.inj refused).2
  · next edited _ failed =>
      rw [← (Prod.mk.inj refused).1]
      exact commitEdit_refused (Bool.eq_false_iff.mpr failed)

theorem configSet_key {deserializeJson : Reader} {strtof : Strtof} {c c' : ConfigUnit}
    {key arg reply : Str} {io : SetIo}
    (acknowledged : c.configSet deserializeJson strtof key arg io = (c', .ok reply)) :
    ¬CONFIG_KEY_CAP ≤ key.length := by
  intro long
  rw [ConfigUnit.configSet, if_pos long] at acknowledged
  cases (Prod.mk.inj acknowledged).2

section

variable {c c' : ConfigUnit} {key : Str} {edited j : Json} {io : SetIo}

/-- A document that can be read back is live, up to a prefix that spares the key. -/
theorem live_shallow (committed : c.commitEdit key edited io = (c', true))
    (lands : io.load.lands = true) (spared : PrefixSpared c key)
    (shallow : edited.depth ≤ ARDUINOJSON_DEFAULT_NESTING_LIMIT) (some : segments key ≠ [])
    (walk : getWalk (segments key) edited = .ok j) :
    c'.live.isObject = edited.isObject ∧
      (edited.isObject = true → getWalk (segments key) c'.live = .ok j) := by
  have parsed : ((FileText.doc edited).parse).getD .null = edited := by
    rw [FileText.parse, if_pos shallow]
    rfl
  have live := commitEdit_live committed lands
  dsimp only at live
  rw [parsed] at live
  obtain same | ⟨held, noSection, noPrefix, room, p, laid⟩ := live
  · rw [same]
    exact ⟨rfl, fun _ => walk⟩
  · rw [laid]
    refine ⟨setPrefix_isObject some walk, fun isObject => ?_⟩
    obtain free | sectionKey | prefixKey | ⟨other, other'⟩ := spared
    · rw [free] at held
      cases held
    · exact absurd sectionKey noSection
    · exact absurd prefixKey noPrefix
    · exact getWalk_setPrefix isObject room other other' some walk

/-- A document nested too deep leaves an empty live document, but for the prefix. -/
theorem live_deep (committed : c.commitEdit key edited io = (c', true))
    (lands : io.load.lands = true)
    (deep : ¬edited.depth ≤ ARDUINOJSON_DEFAULT_NESTING_LIMIT) : c'.live.depth ≤ 2 := by
  have parsed : ((FileText.doc edited).parse).getD .null = .null := by
    rw [FileText.parse, if_neg deep]
    rfl
  have live := commitEdit_live committed lands
  dsimp only at live
  rw [parsed] at live
  obtain same | ⟨-, -, -, -, p, laid⟩ := live
  · rw [same]
    exact Nat.zero_le _
  · rw [laid]
    have laid := depth_setPrefix p .null
    simpa [depth] using laid

theorem get_depth_le (c : ConfigUnit) : c.get.depth ≤ c.live.depth := by
  rw [ConfigUnit.get]
  split
  · exact Nat.le_refl _
  · exact Nat.zero_le _

end

/-- The file and the key of a `config.set` that are read back as they were set: the root is an
object, no dot ends the key, and the value is not nested deeper than the reader goes. -/
def ReadableSet (key : Str) (doc j : Json) : Prop :=
  doc.isObject = true ∧ key.getLast? ≠ some '.' ∧
    (segments key).length + j.depth ≤ ARDUINOJSON_DEFAULT_NESTING_LIMIT

section

variable {c c' : ConfigUnit} {key parentPath finalKey : Str} {doc edited j : Json} {io : SetIo}

/-- Nothing is read below a root that is no object. -/
theorem root_of_reads (split : splitLastDot key = some (parentPath, finalKey))
    (walks : walkTo (placeValue parentPath finalKey (.value j)) [] (tokens parentPath) doc =
      .ok edited)
    (kind : c'.live.isObject = edited.isObject) (reads : getWalk (tokens key) c'.get = .ok j) :
    edited.isObject = true := by
  by_contra other
  have noObject : ¬c'.live.isObject = true := by rwa [kind]
  rw [ConfigUnit.get, if_neg noObject] at reads
  have none : tokens key = [] := by
    cases found : tokens key with
    | nil => rfl
    | cons tok rest =>
        rw [found] at reads
        exact absurd reads getWalk_null
  rw [tokens_eq split] at none
  split at none
  · next last =>
      rw [last, none] at walks
      rw [walkTo_isObject walks] at other
      exact other (walkTo_dot walks)
  · simp [segments, split] at none

/-- Below a dot at the end of the key the value would hold itself in its empty member. -/
theorem dot_of_reads (split : splitLastDot key = some (parentPath, finalKey))
    (isObject : c'.live.isObject = true) (walk : getWalk (segments key) c'.live = .ok j)
    (reads : getWalk (tokens key) c'.get = .ok j) : finalKey ≠ [] := by
  intro last
  rw [tokens_eq split, if_pos last, ConfigUnit.get, if_pos isObject] at reads
  have segs : segments key = tokens parentPath ++ [finalKey] := by rw [segments, split]
  rw [segs, last, getWalk_append, reads] at walk
  have step : getStep j [] = .ok j := by
    rw [← getWalk_one]
    exact walk
  exact Nat.lt_irrefl _ (getStep_depth step)

/-- A value nested too deep is not read from what is left of the live document. -/
theorem not_read_deep (split : splitLastDot key = some (parentPath, finalKey))
    (deep : ARDUINOJSON_DEFAULT_NESTING_LIMIT < (segments key).length + j.depth)
    (empty : c'.live.depth ≤ 2) : getWalk (tokens key) c'.get ≠ .ok j := by
  intro reads
  have down := getWalk_depth reads
  have room := get_depth_le c'
  have limit : ARDUINOJSON_DEFAULT_NESTING_LIMIT = 10 := rfl
  have segs : (segments key).length = (tokens parentPath).length + 1 := by simp [segments, split]
  have many : (tokens parentPath).length ≤ (tokens key).length := by
    rw [tokens_eq split]
    split
    · exact Nat.le_refl _
    · omega
  omega

theorem configGet_iff (split : splitLastDot key = some (parentPath, finalKey))
    (walks : walkTo (placeValue parentPath finalKey (.value j)) [] (tokens parentPath) doc =
      .ok edited)
    (inside : doc.depth ≤ ARDUINOJSON_DEFAULT_NESTING_LIMIT) (short : ¬CONFIG_KEY_CAP ≤ key.length)
    (committed : c.commitEdit key edited io = (c', true)) (lands : io.load.lands = true)
    (spared : PrefixSpared c key) : c'.configGet key = .ok j ↔ ReadableSet key doc j := by
  have segs : segments key = tokens parentPath ++ [finalKey] := by rw [segments, split]
  have some : segments key ≠ [] := by simp [segs]
  have walk : getWalk (segments key) edited = .ok j := by
    rw [segs]
    exact walkTo_get walks
  rw [ConfigUnit.configGet, if_neg short, ReadableSet, ← walkTo_isObject walks, ne_eq,
    getLast?_dot split]
  by_cases shallow : edited.depth ≤ ARDUINOJSON_DEFAULT_NESTING_LIMIT
  · obtain ⟨liveKind, liveWalk⟩ := live_shallow committed lands spared shallow some walk
    constructor
    · intro reads
      have isObject := root_of_reads split walks liveKind reads
      exact ⟨isObject, dot_of_reads split (liveKind.trans isObject) (liveWalk isObject) reads,
        Nat.le_trans (getWalk_depth walk) shallow⟩
    · rintro ⟨isObject, whole, -⟩
      rw [tokens_eq split, if_neg whole, ConfigUnit.get, if_pos (liveKind.trans isObject)]
      exact liveWalk isObject
  · have deep : ARDUINOJSON_DEFAULT_NESTING_LIMIT < (segments key).length + j.depth := by
      have down := walkTo_depth walks
      have size : (segments key).length = (tokens parentPath).length + 1 := by simp [segs]
      omega
    refine iff_of_false (not_read_deep split deep (live_deep committed lands shallow)) ?_
    exact fun readable => absurd readable.2.2 (Nat.not_le.mpr deep)

end

/-- Ten arrays around nothing. -/
def tenArrays : Json :=
  .arr [.arr [.arr [.arr [.arr [.arr [.arr [.arr [.arr [.arr []]]]]]]]]]

def TEN_ARRAYS : Str := "[[[[[[[[[[]]]]]]]]]]".toList

end Thesada.Config
