import Mathlib.Algebra.Group.Nat.Defs
import Thesada.Config.Store

/-!
# `config.set`

The command edits a copy of the file at a dotted key, writes it back and reads the file into the
live document again. A key segment is an index where it meets an array and a member name where it
meets an object; members on the way are made where they are missing or null.

The reader of JSON literals and `strtof` are parameters.
-/

namespace Thesada.Config

open CString Json

/-- The bits of the float that a whole text spells, if it spells one. -/
abbrev Strtof := Str → Option Nat

def CONFIG_KEY_CAP : Nat := 128

/-- `snprintf` into `char[cap]`. -/
def clipped (cap : Nat) (text : Str) : Str := text.take (cap - 1)

/-! ## Keys -/

/-- `parseArrayIndex`; a `size_t` has 32 bits. -/
def parseArrayIndex (tok : Str) : Option Nat :=
  if tok.isEmpty || !tok.all Char.isDigit then none else some (decimal tok % 2 ^ 32)

/-- The key before and after its last dot. -/
def splitLastDot (key : Str) : Option (Str × Str) :=
  if '.' ∈ key then
    some (((key.reverse.dropWhile (· ≠ '.')).drop 1).reverse,
      (key.reverse.takeWhile (· ≠ '.')).reverse)
  else none

/-- `strtok_r` at dots: no token is empty. -/
def tokens (path : Str) : List Str := (path.splitOn '.').filter fun tok => !tok.isEmpty

/-- The step a token takes from a document. -/
def segOf (parent : Json) (tok : Str) : Option Seg :=
  match parent with
  | .arr _ => (parseArrayIndex tok).map .index
  | .obj _ => some (.key tok)
  | _ => none

/-! ## The value -/

inductive SetValue where
  | delete
  | value (j : Json)

/-- Surrounding double quotes are dropped. -/
def stripQuotes (value : Str) : Str :=
  if 2 ≤ value.length ∧ value.head? = some '"' ∧ value.getLast? = some '"' then
    (value.drop 1).dropLast
  else value

/-- `String::trim`. -/
def trimmed (s : Str) : Str := ((s.dropWhile isSpace).reverse.dropWhile isSpace).reverse

/-- A scalar as it is detected. -/
def scalarOf (strtof : Strtof) (value : Str) : Json :=
  if value = "true".toList then .bool true
  else if value = "false".toList then .bool false
  else if (strtol value).2.isEmpty && !value.isEmpty then .int (strtol value).1
  else
    match if value.isEmpty then none else strtof value with
    | some bits => .float bits
    | none => .str value

def setValueOf (deserializeJson : Reader) (strtof : Strtof) (value : Str) : SetValue :=
  if value = "--delete".toList then .delete
  else if (trimmed value).head? = some '\x7b' ∨ (trimmed value).head? = some '[' then
    match deserializeJson (trimmed value) with
    | .ok lit => .value lit
    | .error _ => .value (scalarOf strtof value)
  else .value (scalarOf strtof value)

/-! ## The edit -/

def noArrayYet (path : Str) (verb : String) : Str :=
  clipped 160 ("Parent path '".toList ++ path ++ verb.toList ++ ". Run config.set ".toList ++ path ++
    " [] first.".toList)

/-- The last segment: where the value goes. -/
def placeValue (parentPath finalKey : Str) (v : SetValue) (parent : Json) : Except Str Json :=
  match parseArrayIndex finalKey, parent with
  | some i, .arr items =>
      if items.length < i then .error "Array index out of range (would leave hole)".toList
      else
        match v with
        | .delete => .ok ((Json.arr items).put (.index i) .null)
        | .value j => .ok ((Json.arr items).put (.index i) j)
  | some _, _ => .error (noArrayYet parentPath "' is not an array")
  | none, .obj ms =>
      match v with
      | .delete => .ok ((Json.obj ms).remove finalKey)
      | .value j => .ok ((Json.obj ms).put (.key finalKey) j)
  | none, _ => .error "Parent is not an object or array".toList

def joined (walked tok : Str) : Str := if walked.isEmpty then tok else walked ++ '.' :: tok

/-- The walk to the parent, which makes missing objects on its way. -/
def walkTo (finish : Json → Except Str Json) (walked : Str) : List Str → Json → Except Str Json
  | [], parent => finish parent
  | tok :: rest, parent =>
      match parent with
      | .arr items =>
          match parseArrayIndex tok with
          | none => .error "Parent key not found".toList
          | some i =>
              match items[i]? with
              | none => .error "Parent array index out of range".toList
              | some c =>
                  (walkTo finish (joined walked tok) rest c).map ((Json.arr items).put (.index i))
      | .obj ms =>
          let c := (getMember tok ms).getD .null
          if c.isNull then
            if (rest.head?.bind parseArrayIndex).isSome then
              .error (noArrayYet (joined walked tok) "' doesn't exist")
            else
              (walkTo finish (joined walked tok) rest (.obj [])).map ((Json.obj ms).put (.key tok))
          else (walkTo finish (joined walked tok) rest c).map ((Json.obj ms).put (.key tok))
      | _ => .error "Parent key not found".toList

/-- The edited document. -/
def configSetDoc (key : Str) (v : SetValue) (doc : Json) : Except Str Json :=
  match splitLastDot key with
  | none => .error "Cannot set top-level keys directly (use section.key format)".toList
  | some (parentPath, finalKey) =>
      walkTo (placeValue parentPath finalKey v) [] (tokens parentPath) doc

/-- The path a key names in a document. -/
def pathOf (finalKey : Str) : List Str → Json → Path
  | [], parent => ((segOf parent finalKey).map fun s => [s]).getD []
  | tok :: rest, parent =>
      match segOf parent tok with
      | none => []
      | some s =>
          let c := (parent.child s).getD .null
          s :: pathOf finalKey rest (if c.isNull then .obj [] else c)

def configSetPath (key : Str) (doc : Json) : Path :=
  match splitLastDot key with
  | none => []
  | some (parentPath, finalKey) => pathOf finalKey (tokens parentPath) doc

/-! ## The command -/

structure SetIo where
  sees : Bool
  opens : Bool
  reads : Bool
  write : WriteIo
  load : LoadIo

/-- The document an edit of the file starts from. -/
def readForEdit (file : Option FileText) (io : SetIo) : Except Str Json :=
  match file with
  | none => .error "config.json not found".toList
  | some text =>
      if !io.sees then .error "config.json not found".toList
      else if !io.opens then .error "Failed to read config.json".toList
      else
        match if io.reads then text.parse else none with
        | none => .error "JSON parse error in config.json".toList
        | some doc => .ok doc

namespace ConfigUnit

/-- `restoreBootPrefix` after a command that wrote `key`. -/
def restoreBootPrefix (c : ConfigUnit) (kept : Option Str) (key : Str) : ConfigUnit :=
  match kept with
  | none => c
  | some p =>
      if key = K_MQTT ∨ key = "mqtt.topic_prefix".toList then c else (c.holdTopicPrefix p).1

/-- The file after a command's edit of it, with the live document read back. -/
def commitEdit (c : ConfigUnit) (key : Str) (doc : Json) (io : SetIo) : ConfigUnit × Bool :=
  let kept := c.copyBootTopicPrefix TOPIC_PREFIX_CAP
  let (c', ok) := c.writeFile doc io.write
  if ok then ((c'.load io.load).restoreBootPrefix kept key, true) else (c', false)

def configSetReply (key value : Str) : Str :=
  clipped 128 (if value = "--delete".toList then "Deleted ".toList ++ key ++ " (saved)".toList
    else "Set ".toList ++ key ++ " = ".toList ++ value ++
      " (saved - run config.reload to apply network changes)".toList)

/-- `cmd_config_set` with its two arguments: the reply, or the text of the failure. -/
def configSet (deserializeJson : Reader) (strtof : Strtof) (c : ConfigUnit) (key arg : Str)
    (io : SetIo) : ConfigUnit × Except Str Str :=
  if CONFIG_KEY_CAP ≤ key.length then (c, .error "Key too long (max 127 bytes)".toList)
  else if c.held.isSome && (c.copyBootTopicPrefix TOPIC_PREFIX_CAP).isNone then
    (c, .error "Refused: boot topic prefix does not fit".toList)
  else
    let value := stripQuotes arg
    match readForEdit c.file io with
    | .error text => (c, .error text)
    | .ok doc =>
        match configSetDoc key (setValueOf deserializeJson strtof value) doc with
        | .error text => (c, .error text)
        | .ok edited =>
            let (c', ok) := c.commitEdit key edited io
            if ok then (c', .ok (configSetReply key value))
            else (c', .error "Failed to write config.json (fs full?)".toList)

end ConfigUnit

/-! ## What the edit changes -/

/-- An edit leaves everything apart from its path, and a value set is found there. -/
structure Sets (v : SetValue) (path : Path) (before after : Json) : Prop where
  named : path ≠ []
  keeps : Keeps [path] before after
  found : ∀ j, v = .value j → after.atPath path = some j

/-- A value is placed at the step its segment takes. -/
theorem placeValue_put {parentPath finalKey : Str} {parent after j : Json}
    (placed : placeValue parentPath finalKey (.value j) parent = .ok after) :
    ∃ s, segOf parent finalKey = some s ∧ after = parent.put s j ∧ after.child s = some j := by
  cases parsed : parseArrayIndex finalKey with
  | some i =>
      cases parent with
      | arr items =>
          simp only [placeValue, parsed] at placed
          split at placed
          · cases placed
          · next inside =>
              obtain rfl := Except.ok.inj placed
              exact ⟨.index i, by simp [segOf, parsed], rfl,
                child_put_index (Nat.le_of_not_lt inside) j⟩
      | _ => simp [placeValue, parsed] at placed
  | none =>
      cases parent with
      | obj ms =>
          simp only [placeValue, parsed] at placed
          obtain rfl := Except.ok.inj placed
          exact ⟨.key finalKey, rfl, rfl, child_put_key ms finalKey j⟩
      | _ => simp [placeValue, parsed] at placed

/-- A delete nulls an element or removes a member. -/
theorem placeValue_delete {parentPath finalKey : Str} {parent after : Json}
    (placed : placeValue parentPath finalKey .delete parent = .ok after) :
    ∃ s, segOf parent finalKey = some s ∧ Keeps [[s]] parent after := by
  cases parsed : parseArrayIndex finalKey with
  | some i =>
      cases parent with
      | arr items =>
          simp only [placeValue, parsed] at placed
          split at placed
          · cases placed
          · obtain rfl := Except.ok.inj placed
            exact ⟨.index i, by simp [segOf, parsed], Keeps.put _ _⟩
      | _ => simp [placeValue, parsed] at placed
  | none =>
      cases parent with
      | obj ms =>
          simp only [placeValue, parsed] at placed
          obtain rfl := Except.ok.inj placed
          exact ⟨.key finalKey, rfl, Keeps.remove _⟩
      | _ => simp [placeValue, parsed] at placed

theorem pathOf_last {finalKey : Str} {parent : Json} {s : Seg}
    (seg : segOf parent finalKey = some s) : pathOf finalKey [] parent = [s] := by
  rw [pathOf, seg]
  rfl

theorem placeValue_sets {parentPath finalKey : Str} {v : SetValue} {parent after : Json}
    (placed : placeValue parentPath finalKey v parent = .ok after) :
    Sets v (pathOf finalKey [] parent) parent after := by
  cases v with
  | delete =>
      obtain ⟨s, seg, keeps⟩ := placeValue_delete placed
      rw [pathOf_last seg]
      exact ⟨List.cons_ne_nil _ _, keeps, fun j same => by cases same⟩
  | value j =>
      obtain ⟨s, seg, rfl, found⟩ := placeValue_put placed
      rw [pathOf_last seg]
      refine ⟨List.cons_ne_nil _ _, Keeps.put _ _, ?_⟩
      intro j' same
      obtain rfl := SetValue.value.inj same
      rw [atPath, found]
      rfl

/-- One step down: the edit below a child, seen from its parent. -/
theorem Sets.under {v : SetValue} {path : Path} {before after below : Json} {s : Seg}
    (sets : Sets v path below after) (held : ∀ c, before.child s = some c → c = below ∨ c = .null)
    (lands : (before.put s after).child s = some after) :
    Sets v (s :: path) before (before.put s after) := by
  refine ⟨by simp, ?_, ?_⟩
  · refine Keeps.under (T := [path]) (by simp) ?_
    intro c found
    obtain rfl | rfl := held c found
    · exact sets.keeps
    · exact Keeps.of_leaf (by simp) fun s => by cases s <;> rfl
  · intro j same
    simp only [atPath, lands, Option.bind_some]
    exact sets.found j same

theorem pathOf_null (finalKey : Str) (toks : List Str) : pathOf finalKey toks .null = [] := by
  cases toks <;> rfl

theorem isNull_iff {j : Json} : j.isNull = true ↔ j = .null := by
  cases j <;> simp [isNull]

theorem map_ok {f : Json → Json} {r : Except Str Json} {after : Json}
    (mapped : r.map f = .ok after) : ∃ below, r = .ok below ∧ after = f below := by
  cases r with
  | error text => simp [Except.map] at mapped
  | ok below => exact ⟨below, rfl, (Except.ok.inj mapped).symm⟩

/-- One segment on the way to the parent: the walk goes on in the child at its step, or in a new
object where there is none or a null. -/
theorem walkTo_cons {finish : Json → Except Str Json} {walked tok : Str} {rest : List Str}
    {parent after : Json} (walks : walkTo finish walked (tok :: rest) parent = .ok after) :
    ∃ s c below, segOf parent tok = some s ∧ after = parent.put s below ∧
      walkTo finish (joined walked tok) rest c = .ok below ∧
        (parent.child s = some c ∨
          s = .key tok ∧ c = .obj [] ∧ ∀ d, parent.child s = some d → d = .null) := by
  cases parent with
  | arr items =>
      simp only [walkTo] at walks
      split at walks
      · cases walks
      · next i parsed =>
          split at walks
          · cases walks
          · next c found =>
              obtain ⟨below, walked, rfl⟩ := map_ok walks
              exact ⟨.index i, c, below, by simp [segOf, parsed], rfl, walked, .inl found⟩
  | obj ms =>
      simp only [walkTo] at walks
      split at walks
      · next missing =>
          split at walks
          · cases walks
          · obtain ⟨below, walked, rfl⟩ := map_ok walks
            refine ⟨.key tok, .obj [], below, rfl, rfl, walked, .inr ⟨rfl, rfl, fun d held => ?_⟩⟩
            rw [child] at held
            rw [held] at missing
            exact isNull_iff.mp missing
      · next there =>
          obtain ⟨below, walked, rfl⟩ := map_ok walks
          refine ⟨.key tok, _, below, rfl, rfl, walked, .inl ?_⟩
          rw [child]
          cases found : getMember tok ms with
          | none => simp [found, isNull] at there
          | some d => rfl
  | _ => simp [walkTo] at walks

/-- What the walk puts in its place is a child. -/
theorem walkTo_lands {tok : Str} {s : Seg} {parent c below : Json}
    (seg : segOf parent tok = some s)
    (held : parent.child s = some c ∨
      s = .key tok ∧ c = .obj [] ∧ ∀ d, parent.child s = some d → d = .null) :
    (parent.put s below).child s = some below := by
  obtain found | ⟨rfl, -, -⟩ := held
  · exact child_put found
  · cases parent with
    | obj ms => exact child_put_key ms tok below
    | arr items =>
        simp only [segOf, Option.map_eq_some_iff] at seg
        obtain ⟨i, -, other⟩ := seg
        cases other
    | _ => cases seg

theorem pathOf_child {finalKey tok : Str} {rest : List Str} {parent c : Json} {s : Seg}
    (seg : segOf parent tok = some s) (found : parent.child s = some c)
    (more : pathOf finalKey rest c ≠ []) :
    pathOf finalKey (tok :: rest) parent = s :: pathOf finalKey rest c := by
  have notNull : c.isNull = false := by
    cases c with
    | null => exact absurd (pathOf_null finalKey rest) more
    | _ => rfl
  simp [pathOf, seg, found, notNull]

theorem pathOf_new {finalKey tok : Str} {rest : List Str} {parent : Json} {s : Seg}
    (seg : segOf parent tok = some s) (absent : ∀ d, parent.child s = some d → d = .null) :
    pathOf finalKey (tok :: rest) parent = s :: pathOf finalKey rest (.obj []) := by
  have null : ((parent.child s).getD .null).isNull = true := by
    cases found : parent.child s with
    | none => rfl
    | some d => rw [absent d found]; rfl
  simp [pathOf, seg, null]

theorem walkTo_sets {parentPath finalKey walked : Str} {v : SetValue} {toks : List Str}
    {parent after : Json}
    (walks : walkTo (placeValue parentPath finalKey v) walked toks parent = .ok after) :
    Sets v (pathOf finalKey toks parent) parent after := by
  induction toks generalizing walked parent after with
  | nil => exact placeValue_sets walks
  | cons tok rest ih =>
      obtain ⟨s, c, below, seg, rfl, behind, held⟩ := walkTo_cons walks
      have lands : (parent.put s below).child s = some below := walkTo_lands seg held
      have sets := ih behind
      obtain found | ⟨-, rfl, absent⟩ := held
      · rw [pathOf_child seg found sets.named]
        refine sets.under ?_ lands
        intro d held
        exact .inl (Option.some.inj (held.symm.trans found))
      · rw [pathOf_new seg absent]
        exact sets.under (fun d held => .inr (absent d held)) lands

/-- An accepted key edits its path only, and a value set is found there. -/
theorem configSetDoc_sets {key : Str} {v : SetValue} {doc after : Json}
    (edited : configSetDoc key v doc = .ok after) : Sets v (configSetPath key doc) doc after := by
  simp only [configSetDoc] at edited
  simp only [configSetPath]
  split at edited
  · simp at edited
  · rename_i parentPath finalKey parts
    exact walkTo_sets edited

/-- What an acknowledged `config.set` did. -/
theorem configSet_ok {deserializeJson : Reader} {strtof : Strtof} {c c' : ConfigUnit}
    {key arg reply : Str} {io : SetIo}
    (acknowledged : c.configSet deserializeJson strtof key arg io = (c', .ok reply)) :
    ∃ doc edited, readForEdit c.file io = .ok doc ∧
      configSetDoc key (setValueOf deserializeJson strtof (stripQuotes arg)) doc = .ok edited ∧
        c.commitEdit key edited io = (c', true) := by
  simp only [ConfigUnit.configSet] at acknowledged
  split at acknowledged
  · simp at acknowledged
  · split at acknowledged
    · simp at acknowledged
    · split at acknowledged
      · simp at acknowledged
      · rename_i doc read
        split at acknowledged
        · simp at acknowledged
        · rename_i edited made
          refine ⟨doc, edited, read, made, ?_⟩
          split at acknowledged
          · rename_i landed
            exact Prod.ext (Prod.mk.inj acknowledged).1 landed
          · simp at acknowledged

end Thesada.Config
