import Thesada.Config.GetCommand
import Thesada.Config.SetNumbers
import Thesada.Library.JsonLookup

/-!
# `Config.get` of a script and `config.get` of the shell

Both walk the live document down a dotted key. The script's binding clips the key to its buffer,
reads an index with `strtol` and goes on from a missing element as from null; the command refuses
a key that does not fit, takes digits only and stops at an index that is out of range. Errors and
null are both nil in Lua.

The conversion to a Lua number and the serializer are parameters.
-/

namespace Thesada.Script

open CString Json Config

/-- `char buf[128]` of `lua_config_get`. -/
def LUA_CONFIG_KEY_CAP : Nat := 128

inductive LuaValue where
  | nil
  | boolean (b : Bool)
  | integer (n : Int)
  /-- A float, as its bits. -/
  | number (bits : Nat)
  | string (s : Str)
  deriving DecidableEq

/-- `strtol` of a whole segment, as the `size_t` it is cast to. -/
def luaIndex (tok : Str) : Option Nat :=
  if (strtol tok).2.isEmpty then some ((strtol tok).1 % 4294967296).toNat else none

/-- One segment; `none` where the binding pushes nil at once. -/
def luaStep (current : Json) (tok : Str) : Option Json :=
  match current with
  | .obj ms => some ((getMember tok ms).getD .null)
  | .arr items => (luaIndex tok).map fun i => (items[i]?).getD .null
  | _ => none

def luaWalk : List Str → Json → Option Json
  | [], current => some current
  | tok :: rest, current => (luaStep current tok).bind (luaWalk rest)

section

variable (asFloat : Json → Nat) (serializeJson : Json → Str)

/-- An integer of more than 32 bits is pushed as a float, an array or object as its text. -/
def luaPush : Json → LuaValue
  | .null => .nil
  | .bool b => .boolean b
  | .int n =>
      if -2147483648 ≤ n ∧ n ≤ 2147483647 then .integer n else .number (asFloat (.int n))
  | .float bits => .number (asFloat (.float bits))
  | .str s => .string (cstr s)
  | .arr items => .string (cstr (serializeJson (.arr items)))
  | .obj ms => .string (cstr (serializeJson (.obj ms)))

/-- The node that a key leads to, if the walk gets to its end. -/
def luaNode (c : ConfigUnit) (key : Str) : Option Json :=
  luaWalk (tokens (clipped LUA_CONFIG_KEY_CAP (cstr key))) c.get

/-- `lua_config_get`. -/
def luaConfigGet (c : ConfigUnit) (key : Str) : LuaValue :=
  (luaNode c key).elim .nil (luaPush asFloat serializeJson)

/-- The node that the command prints. -/
def shellNode (c : ConfigUnit) (key : Str) : Option Json := (c.configGet (cstr key)).toOption

/-- Both lead to the same node, null standing for none; and Lua gets nil for every failure and
for null, and else the value of the node the command prints. -/
structure GetsAlike (c : ConfigUnit) (key : Str) : Prop where
  node : (luaNode c key).getD .null = (shellNode c key).getD .null
  value : luaConfigGet asFloat serializeJson c key =
    (shellNode c key).elim .nil (luaPush asFloat serializeJson)

end

/-- A live document within the nesting limit of the parser, with arrays of up to `room`
elements. -/
structure LiveDoc (room : Nat) where
  unit : ConfigUnit
  shallow : unit.live.depth ≤ ARDUINOJSON_DEFAULT_NESTING_LIMIT
  roomy : Roomy room unit.live

/-- The key that is left in the script's buffer is too deep for any document; or the key fits,
and every segment but the first spells the same index to both, up to the largest array. -/
def KeyAlike (room : Nat) (key : Str) : Prop :=
  ARDUINOJSON_DEFAULT_NESTING_LIMIT < (tokens (clipped LUA_CONFIG_KEY_CAP key)).length ∨
    key.length < CONFIG_KEY_CAP ∧
      ∀ tok ∈ (tokens key).drop 1, AgreeBelow room luaIndex parseArrayIndex tok

/-! ## Both walks are lookups -/

section

variable {asFloat : Json → Nat} {serializeJson : Json → Str} {c : ConfigUnit} {key : Str}
  {room : Nat}

theorem luaStep_readAt (j : Json) (tok : Str) :
    (luaStep j tok).getD .null = readAt luaIndex j tok := by
  cases j with
  | arr items =>
      cases reads : luaIndex tok with
      | none => simp [luaStep, readAt, reads]
      | some i => simp [luaStep, readAt, reads]
  | _ => rfl

theorem getStep_readAt (j : Json) (tok : Str) :
    (getStep j tok).toOption.getD .null = readAt parseArrayIndex j tok := by
  cases j with
  | arr items =>
      cases reads : parseArrayIndex tok with
      | none => simp [getStep, readAt, reads, Except.toOption]
      | some i =>
          cases held : items[i]? with
          | none => simp [getStep, readAt, reads, held, Except.toOption]
          | some v => simp [getStep, readAt, reads, held, Except.toOption]
  | _ => rfl

theorem luaWalk_lookup (toks : List Str) (j : Json) :
    (luaWalk toks j).getD .null = lookup luaIndex toks j := by
  induction toks generalizing j with
  | nil => rfl
  | cons tok toks ih =>
      rw [lookup_cons, ← luaStep_readAt, luaWalk]
      cases luaStep j tok with
      | none => simp
      | some v => exact ih v

theorem getWalk_lookup (toks : List Str) (j : Json) :
    (getWalk toks j).toOption.getD .null = lookup parseArrayIndex toks j := by
  induction toks generalizing j with
  | nil => rfl
  | cons tok toks ih =>
      rw [lookup_cons, ← getStep_readAt, getWalk]
      cases getStep j tok with
      | error text => simp [Except.toOption, Except.bind]
      | ok v => exact ih v

/-- The value follows from the node: null is pushed as nil. -/
theorem getsAlike_of_node (node : (luaNode c key).getD .null = (shellNode c key).getD .null) :
    GetsAlike asFloat serializeJson c key := by
  have push (found : Option Json) :
      found.elim .nil (luaPush asFloat serializeJson) =
        luaPush asFloat serializeJson (found.getD .null) := by
    cases found with
    | none => rfl
    | some v => rfl
  refine ⟨node, ?_⟩
  rw [luaConfigGet, push, push, node]

theorem luaNode_lookup (c : ConfigUnit) (key : Str) :
    (luaNode c key).getD .null =
      lookup luaIndex (tokens (clipped LUA_CONFIG_KEY_CAP (cstr key))) c.get :=
  luaWalk_lookup _ _

theorem shellNode_lookup (c : ConfigUnit) (key : Str) :
    (shellNode c key).getD .null =
      if CONFIG_KEY_CAP ≤ (cstr key).length then .null
      else lookup parseArrayIndex (tokens (cstr key)) c.get := by
  rw [shellNode, ConfigUnit.configGet]
  split
  · rfl
  · exact getWalk_lookup _ _

/-- What the nodes of a key are for all live documents: the root is an object, or there are no
nodes. -/
theorem getsAlike_iff_objects :
    (∀ d : LiveDoc room, GetsAlike asFloat serializeJson d.unit key) ↔
      ∀ ms, (Json.obj ms).depth ≤ ARDUINOJSON_DEFAULT_NESTING_LIMIT → Roomy room (.obj ms) →
        lookup luaIndex (tokens (clipped LUA_CONFIG_KEY_CAP (cstr key))) (.obj ms) =
          if CONFIG_KEY_CAP ≤ (cstr key).length then .null
          else lookup parseArrayIndex (tokens (cstr key)) (.obj ms) := by
  constructor
  · intro alike ms shallow roomy
    have node := (alike ⟨readUnit (.obj ms), shallow, roomy⟩).node
    rwa [luaNode_lookup, shellNode_lookup] at node
  · intro same d
    apply getsAlike_of_node
    rw [luaNode_lookup, shellNode_lookup]
    obtain ⟨c, shallow, roomy⟩ := d
    rw [ConfigUnit.get]
    cases live : c.live with
    | obj ms =>
        rw [live] at shallow roomy
        exact same ms shallow roomy
    | _ => simp [isObject]

end

/-- For every key: the script and the shell resolve it to the same node of every live document,
and Lua gets that node's value or nil, exactly when the key is alike to both. -/
theorem lua_config_get_iff (asFloat : Json → Nat) (serializeJson : Json → Str) (room : Nat)
    (key : Str) :
    (∀ d : LiveDoc room, GetsAlike asFloat serializeJson d.unit key) ↔
      KeyAlike room (cstr key) := by
  rw [getsAlike_iff_objects, KeyAlike]
  by_cases long : CONFIG_KEY_CAP ≤ (cstr key).length
  · simp only [if_pos long, Nat.not_lt.mpr long, false_and, or_false]
    exact lookup_null_iff (Nat.succ_pos _)
  · have short : (cstr key).length < CONFIG_KEY_CAP := Nat.not_le.mp long
    have whole : clipped LUA_CONFIG_KEY_CAP (cstr key) = cstr key :=
      List.take_of_length_le (Nat.le_sub_one_of_lt short)
    simp only [if_neg long, short, true_and, whole]
    exact lookup_iff

/-- `a.+0` reads an element for the script alone; at `a.4294967296` the shell prints element 0 and
Lua gets nil; and a key of 128 bytes that the shell refuses reads the member its first 127 bytes
name. -/
theorem lua_config_get_differs :
    let items := readUnit (.obj [(['a'], .arr [.bool true])])
    let long := readUnit (.obj [(List.replicate 127 'a', .bool true)])
    let get := luaConfigGet (fun _ => 0) fun _ => []
    get items "a.+0".toList = .boolean true ∧ shellNode items "a.+0".toList = none ∧
      get items "a.4294967296".toList = .nil ∧
      shellNode items "a.4294967296".toList = some (.bool true) ∧
      get long (List.replicate 128 'a') = .boolean true ∧
      shellNode long (List.replicate 128 'a') = none := by
  refine ⟨rfl, rfl, rfl, rfl, ?_, ?_⟩
  · decide +kernel
  · exact Option.isNone_iff_eq_none.mp (by decide +kernel)

/-! ## Spellings of an index -/

section

variable {room : Nat}

theorem strtol_segment (tok : IndexSegment) :
    strtol tok.1 = (clampLong tok.named, []) := by
  obtain ⟨text, some, digits⟩ := tok
  have unsigned : sign text = (false, text) := by
    obtain ⟨rest, rfl, -⟩ | ⟨rest, rfl, -⟩ | parts := sign_cases text
    · simp at digits
    · simp at digits
    · exact parts
  exact strtol_literal (by simp [literalValue, unsigned, digits, some, IndexSegment.named])

theorem luaIndex_segment (tok : IndexSegment) :
    luaIndex tok.1 = some (min tok.named 2147483647) := by
  rw [luaIndex, strtol_segment]
  simp only [List.isEmpty_nil, if_true, Option.some.injEq, clampLong]
  omega

/-- Digits are the same index up to the largest `long`; a larger number is clamped by the one and
wraps for the other. -/
theorem agreeBelow_segment (tok : IndexSegment) :
    AgreeBelow room luaIndex parseArrayIndex tok.1 ↔
      tok.named ≤ 2147483647 ∨ tok.wrapped = 2147483647 ∨
        room ≤ tok.wrapped ∧ room ≤ 2147483647 := by
  have less : tok.wrapped ≤ tok.named := Nat.mod_le _ _
  simp only [AgreeBelow, luaIndex_segment, parseArrayIndex_segment, Option.some.injEq]
  constructor
  · intro agree
    have clamped := agree 2147483647
    have wraps := agree tok.wrapped
    omega
  · intro same i inside
    by_cases small : tok.named ≤ 2147483647
    · have fits : tok.wrapped = tok.named := IndexSegment.wrapped_eq (by omega)
      omega
    · omega

/-- Any other segment is an index to the script alone, if it is one. -/
theorem agreeBelow_other {tok : Str} (other : parseArrayIndex tok = none) :
    AgreeBelow room luaIndex parseArrayIndex tok ↔ ∀ i, luaIndex tok = some i → room ≤ i := by
  simp only [AgreeBelow, other, reduceCtorEq, iff_false]
  constructor
  · intro agree i reads
    by_contra inside
    exact agree i (Nat.not_le.mp inside) reads
  · intro past i inside reads
    exact absurd inside (Nat.not_lt.mpr (past i reads))

end

end Thesada.Script
