import Thesada.Config.CmdConfigScan

/-!
# What a pushed config document must be

A payload is a config document when it is one RFC 8259 object with one `mqtt` member that is an
object with one `broker` member that is a non-empty string, names taken after their escapes. The
scan compares names by their bytes and takes any escape and any byte in a string. `Misread` is
that the two differ on what a payload says.
-/

namespace Thesada.Config

open CString JsonGrammar
open ConfigUnit (docPrefix)

/-- One member of the object is picked by `sel`, and its value has `P`. -/
def OneMember (sel : Bytes → Prop) (P : Tree → Prop) (t : Tree) : Prop :=
  ∃ pre name u post, t = .node true (pre ++ (name, u) :: post) ∧ sel name ∧ P u ∧
    ∀ m ∈ pre ++ post, ¬ sel m.1

/-- The name, its escapes decoded. -/
def Spelled (k : Str) (name : Bytes) : Prop := Decodes name (k.map Char.toNat)

/-- The name, with escapes in it. -/
def Escaped (k : Str) (name : Bytes) : Prop := Spelled k name ∧ name ≠ ascii k

/-- A broker that decodes to some character. -/
def HasBroker : Tree → Prop :=
  OneMember (Spelled K_MQTT) (OneMember (Spelled K_BROKER) fun u =>
    ∃ b n ns, u = .str b ∧ Decodes b (n :: ns))

/-- One RFC 8259 object with a broker, and nested no deeper than the cap. -/
def ConfigDocument (payload : Bytes) : Prop :=
  ∃ t, Text RfcBody CMD_CONFIG_MAX_DEPTH payload t ∧ HasBroker t

/-! ## Where the scan reads otherwise -/

/-- A broker, names and strings by their bytes. -/
def HasBrokerBytes : Tree → Prop :=
  OneMember (· = ascii K_MQTT) (OneMember (· = ascii K_BROKER) fun u => ∃ b, u = .str b ∧ b ≠ [])

/-- `mqtt`, or `broker` in a member that is `mqtt`, is spelled with an escape. -/
def EscapedName (t : Tree) : Prop :=
  ∃ ms m, t = .node true ms ∧ m ∈ ms ∧
    (Escaped K_MQTT m.1 ∨
      Spelled K_MQTT m.1 ∧ ∃ bs b, m.2 = .node true bs ∧ b ∈ bs ∧ Escaped K_BROKER b.1)

def RfcStrings (t : Tree) : Prop := ∀ b ∈ t.strings, RfcBody b

/-- In order by its bytes, with a string outside the RFC or an escaped name; or in order by the
RFC, with an escaped name. -/
def Misread (t : Tree) : Prop :=
  HasBrokerBytes t ∧ (¬ RfcStrings t ∨ EscapedName t) ∨
    RfcStrings t ∧ HasBroker t ∧ EscapedName t

/-! ## One member -/

theorem OneMember.only {sel : Bytes → Prop} {P : Tree → Prop} {t : Tree}
    (one : OneMember sel P t) :
    ∃ ms m, t = .node true ms ∧ m ∈ ms ∧ sel m.1 ∧ P m.2 ∧ ∀ m' ∈ ms, sel m'.1 → m' = m := by
  obtain ⟨pre, name, u, post, rfl, picked, holds, others⟩ := one
  refine ⟨_, (name, u), rfl, by simp, picked, holds, ?_⟩
  intro m' inside picked'
  rw [List.mem_append, List.mem_cons] at inside
  obtain before | rfl | after := inside
  · exact absurd picked' (others m' (List.mem_append_left post before))
  · rfl
  · exact absurd picked' (others m' (List.mem_append_right pre after))

theorem OneMember.imp {sel sel' : Bytes → Prop} {P P' : Tree → Prop} {ms : List (Bytes × Tree)}
    (same : ∀ m ∈ ms, sel m.1 ↔ sel' m.1) (weaken : ∀ m ∈ ms, sel m.1 → P m.2 → P' m.2)
    (one : OneMember sel P (.node true ms)) : OneMember sel' P' (.node true ms) := by
  obtain ⟨pre, name, u, post, cut, picked, holds, others⟩ := one
  obtain ⟨-, rfl⟩ := Tree.node.inj cut
  have inside : (name, u) ∈ pre ++ (name, u) :: post := by simp
  refine ⟨pre, name, u, post, rfl, (same _ inside).mp picked, weaken _ inside picked holds, ?_⟩
  intro m other picked'
  have member : m ∈ pre ++ (name, u) :: post := by
    rw [List.mem_append] at other ⊢
    exact other.imp_right (List.mem_cons_of_mem _)
  exact others m other ((same m member).mpr picked')

/-! ## Spellings -/

/-- A printable ASCII character that stands for itself in a string. -/
def plainAscii (c : Char) : Bool :=
  c.toUInt8 < 0x80 && c.toUInt8.toNat == c.toNat && 0x20 ≤ c.toNat && c.toNat != 0x22 &&
    c.toNat != 0x5C

theorem decodes_ascii {k : Str} (plain : k.all plainAscii = true) : Spelled k (ascii k) := by
  induction k with
  | nil => exact .nil
  | cons c k ih =>
      simp only [List.all_cons, Bool.and_eq_true, plainAscii, decide_eq_true_eq, beq_iff_eq,
        bne_iff_ne] at plain
      obtain ⟨⟨⟨⟨⟨low, same⟩, printable⟩, quote⟩, slash⟩, others⟩ := plain
      refine .cons (w := [c.toUInt8]) ?_ (ih others)
      rw [← same] at printable quote slash ⊢
      exact .unescaped (.one low) printable quote slash

theorem spelled_mqtt : Spelled K_MQTT (ascii K_MQTT) := decodes_ascii (by decide)

theorem spelled_broker : Spelled K_BROKER (ascii K_BROKER) := decodes_ascii (by decide)

/-- Without escaped spellings a name is what its bytes say. -/
theorem spelled_iff {k : Str} (self : Spelled k (ascii k)) {name : Bytes}
    (unescaped : ¬ Escaped k name) : name = ascii k ↔ Spelled k name := by
  constructor
  · rintro rfl
    exact self
  · intro spelled
    by_contra other
    exact unescaped ⟨spelled, other⟩

/-- An escaped name is a second one beside the one by its bytes. -/
theorem not_both {k : Str} (self : Spelled k (ascii k)) {P Q : Tree → Prop}
    {ms : List (Bytes × Tree)} (bytes : OneMember (· = ascii k) P (.node true ms))
    (decoded : OneMember (Spelled k) Q (.node true ms)) {m : Bytes × Tree} (inside : m ∈ ms)
    (escaped : Escaped k m.1) : False := by
  obtain ⟨_, m₁, same, inside₁, bytes₁, -, -⟩ := bytes.only
  cases same
  obtain ⟨_, m₂, same, -, -, -, only⟩ := decoded.only
  cases same
  have first : m₁ = m₂ := only m₁ inside₁ (by rw [bytes₁]; exact self)
  have second : m = m₂ := only m inside escaped.1
  exact escaped.2 (by rw [second, ← first, bytes₁])

theorem Character.nonempty {w : Bytes} {n : Nat} (character : Character w n) : w ≠ [] := by
  cases character with
  | unescaped utf8 _ _ _ => cases utf8 <;> exact List.cons_ne_nil _ _
  | short known => exact List.cons_ne_nil _ _
  | unicode => exact List.cons_ne_nil _ _

/-- A string of the RFC decodes to a character unless it is empty. -/
theorem decodes_nonempty {b : Bytes} (rfc : RfcBody b) :
    b ≠ [] ↔ ∃ n ns, Decodes b (n :: ns) := by
  constructor
  · intro nonempty
    obtain ⟨ns, decodes⟩ := rfc
    cases decodes with
    | nil => exact absurd rfl nonempty
    | cons first rest => exact ⟨_, _, .cons first rest⟩
  · rintro ⟨n, ns, decodes⟩
    cases decodes with
    | cons first rest => simp [Character.nonempty first]

theorem strings_of_mem {ms : List (Bytes × Tree)} {m : Bytes × Tree} (inside : m ∈ ms)
    {b : Bytes} (string : b ∈ m.2.strings) : b ∈ memberStrings true ms := by
  induction ms with
  | nil => simp at inside
  | cons first ms ih =>
      obtain ⟨k, t⟩ := first
      simp only [memberStrings, List.mem_append]
      obtain rfl | later := List.mem_cons.mp inside
      · exact .inr (.inl string)
      · exact .inr (.inr (ih later))

theorem RfcStrings.member {ms : List (Bytes × Tree)} (rfc : RfcStrings (.node true ms))
    {m : Bytes × Tree} (inside : m ∈ ms) : RfcStrings m.2 := by
  intro b string
  refine rfc b ?_
  rw [Tree.strings]
  exact strings_of_mem inside string

/-- The broker member, of a document without escaped names. -/
theorem brokerMember_iff {ms : List (Bytes × Tree)} (rfc : RfcStrings (.node true ms))
    (plain : ∀ m ∈ ms, ¬ Escaped K_BROKER m.1) :
    OneMember (· = ascii K_BROKER) (fun u => ∃ b, u = .str b ∧ b ≠ []) (.node true ms) ↔
      OneMember (Spelled K_BROKER) (fun u => ∃ b n ns, u = .str b ∧ Decodes b (n :: ns))
        (.node true ms) := by
  have string {m : Bytes × Tree} (inside : m ∈ ms) {b : Bytes} (holds : m.2 = .str b) :
      RfcBody b := by
    refine rfc.member inside b ?_
    simp [holds, Tree.strings]
  constructor
  · refine OneMember.imp (fun m inside => spelled_iff spelled_broker (plain m inside)) ?_
    rintro m inside - ⟨b, holds, nonempty⟩
    obtain ⟨n, ns, decodes⟩ := (decodes_nonempty (string inside holds)).mp nonempty
    exact ⟨b, n, ns, holds, decodes⟩
  · refine OneMember.imp (fun m inside => (spelled_iff spelled_broker (plain m inside)).symm) ?_
    rintro m inside - ⟨b, n, ns, holds, decodes⟩
    exact ⟨b, holds, (decodes_nonempty (string inside holds)).mpr ⟨n, ns, decodes⟩⟩

theorem OneMember.object {sel : Bytes → Prop} {P : Tree → Prop} {t : Tree}
    (one : OneMember sel P t) : ∃ ms, t = .node true ms := by
  obtain ⟨ms, m, rfl, -⟩ := one.only
  exact ⟨ms, rfl⟩

/-- Without escaped names the two readings of the RFC's strings agree. -/
theorem hasBroker_iff {t : Tree} (rfc : RfcStrings t) (plain : ¬ EscapedName t) :
    HasBrokerBytes t ↔ HasBroker t := by
  have top {ms : List (Bytes × Tree)} (same : t = .node true ms) {m : Bytes × Tree}
      (inside : m ∈ ms) : ¬ Escaped K_MQTT m.1 :=
    fun escaped => plain ⟨ms, m, same, inside, .inl escaped⟩
  have below {ms bs : List (Bytes × Tree)} (same : t = .node true ms) {m : Bytes × Tree}
      (inside : m ∈ ms) (mqtt : Spelled K_MQTT m.1) (object : m.2 = .node true bs) :
      ∀ b ∈ bs, ¬ Escaped K_BROKER b.1 :=
    fun b member escaped => plain ⟨ms, m, same, inside, .inr ⟨mqtt, bs, b, object, member, escaped⟩⟩
  constructor
  · intro bytes
    obtain ⟨ms, rfl⟩ := bytes.object
    refine OneMember.imp (fun m inside => spelled_iff spelled_mqtt (top rfl inside)) ?_ bytes
    intro m inside name holds
    obtain ⟨bs, object⟩ := holds.object
    have mqtt : Spelled K_MQTT m.1 := (spelled_iff spelled_mqtt (top rfl inside)).mp name
    have strings := rfc.member inside
    rw [object] at holds strings ⊢
    exact (brokerMember_iff strings (below rfl inside mqtt object)).mp holds
  · intro decoded
    obtain ⟨ms, rfl⟩ := decoded.object
    refine OneMember.imp (fun m inside => (spelled_iff spelled_mqtt (top rfl inside)).symm) ?_
      decoded
    intro m inside mqtt holds
    obtain ⟨bs, object⟩ := holds.object
    have strings := rfc.member inside
    rw [object] at holds strings ⊢
    exact (brokerMember_iff strings (below rfl inside mqtt object)).mpr holds

/-- With an escaped name at most one reading finds a broker. -/
theorem escapedName_not_both {t : Tree} (escaped : EscapedName t) (bytes : HasBrokerBytes t)
    (decoded : HasBroker t) : False := by
  obtain ⟨ms, m, rfl, inside, mqtt | ⟨mqtt, bs, b, object, member, broker⟩⟩ := escaped
  · exact not_both spelled_mqtt bytes decoded inside mqtt
  · obtain ⟨_, m₁, same, inside₁, name₁, holds₁, -⟩ := bytes.only
    cases same
    obtain ⟨_, m₂, same, -, -, holds₂, only⟩ := decoded.only
    cases same
    obtain rfl : m₁ = m₂ := only m₁ inside₁ (by rw [name₁]; exact spelled_mqtt)
    obtain rfl : m = m₁ := only m inside mqtt
    rw [object] at holds₁ holds₂
    exact not_both spelled_broker holds₁ holds₂ member broker

/-! ## What the walkers find -/

theorem foldlM_once_seen {lit : Bytes} {f : Tree → Option Nat} {v : Nat} {st : Found}
    {ms : List (Bytes × Tree)} :
    ms.foldlM (once lit f) (true, v) = some st ↔ (∀ m ∈ ms, m.1 ≠ lit) ∧ (true, v) = st := by
  induction ms with
  | nil => simp
  | cons m ms ih =>
      by_cases same : m.1 = lit
      · simp [once, same]
      · simp [once, same, ih]

/-- A walk ends with what `f` gives of the one member named `lit`, if there is one. -/
theorem foldlM_once {lit : Bytes} {f : Tree → Option Nat} {v : Nat} {st : Found}
    {ms : List (Bytes × Tree)} :
    ms.foldlM (once lit f) (false, v) = some st ↔
      ((∀ m ∈ ms, m.1 ≠ lit) ∧ (false, v) = st) ∨
        ∃ pre u post w, ms = pre ++ (lit, u) :: post ∧ (∀ m ∈ pre ++ post, m.1 ≠ lit) ∧
          f u = some w ∧ (true, w) = st := by
  induction ms with
  | nil => simp
  | cons m ms ih =>
      obtain ⟨name, t⟩ := m
      by_cases same : name = lit
      · subst same
        constructor
        · intro steps
          simp only [List.foldlM_cons, once, if_true, Bool.false_eq_true, if_false,
            Option.bind_eq_bind, Option.bind_eq_some_iff, Option.map_eq_some_iff] at steps
          obtain ⟨_, ⟨w, gives, rfl⟩, rest⟩ := steps
          obtain ⟨others, final⟩ := foldlM_once_seen.mp rest
          exact .inr ⟨[], t, ms, w, rfl, others, gives, final⟩
        · rintro (⟨others, -⟩ | ⟨pre, u, post, w, cut, others, gives, final⟩)
          · exact absurd rfl (others _ List.mem_cons_self)
          · cases pre with
            | nil =>
                obtain ⟨first, rfl⟩ := List.cons.inj cut
                obtain ⟨-, rfl⟩ := Prod.mk.inj first
                simpa [once, gives, final] using foldlM_once_seen.mpr ⟨others, final⟩
            | cons m pre =>
                obtain ⟨rfl, -⟩ := List.cons.inj cut
                exact absurd rfl (others _ List.mem_cons_self)
      · have kept : ((name, t) :: ms).foldlM (once lit f) (false, v) =
            ms.foldlM (once lit f) (false, v) := by simp [once, same]
        rw [kept, ih, List.forall_mem_cons]
        constructor
        · rintro (⟨others, final⟩ | ⟨pre, u, post, w, rfl, others, gives, final⟩)
          · exact .inl ⟨⟨same, others⟩, final⟩
          · exact .inr ⟨(name, t) :: pre, u, post, w, rfl,
              List.forall_mem_cons.mpr ⟨same, others⟩, gives, final⟩
        · rintro (⟨⟨-, others⟩, final⟩ | ⟨pre, u, post, w, cut, others, gives, final⟩)
          · exact .inl ⟨others, final⟩
          · cases pre with
            | nil => exact absurd (congrArg Prod.fst (List.cons.inj cut).1) same
            | cons m pre =>
                exact .inr ⟨pre, u, post, w, (List.cons.inj cut).2,
                  (List.forall_mem_cons.mp others).2, gives, final⟩

/-- A walker's verdict on a value is not that the broker is missing. -/
def Positive (f : Tree → Option Nat) (t : Tree) : Prop := ∃ v, f t = some (v + 1)

theorem positive_objectOf {lit : Bytes} {f : Tree → Option Nat} {t : Tree} :
    Positive (objectOf lit f) t ↔ OneMember (· = lit) (Positive f) t := by
  constructor
  · rintro ⟨v, gives⟩
    cases t with
    | node named ms =>
        cases named with
        | false => simp [objectOf] at gives
        | true =>
            simp only [objectOf, Option.map_eq_some_iff] at gives
            obtain ⟨st, steps, final⟩ := gives
            obtain ⟨-, rfl⟩ | ⟨pre, u, post, w, rfl, others, reads, rfl⟩ := foldlM_once.mp steps
            · simp at final
            · exact ⟨pre, lit, u, post, rfl, rfl, ⟨v, reads.trans (congrArg some final)⟩, others⟩
    | _ => simp [objectOf] at gives
  · rintro ⟨pre, name, u, post, rfl, rfl, ⟨v, reads⟩, others⟩
    have steps : (pre ++ (name, u) :: post).foldlM (once name f) (false, 0) = some (true, v + 1) :=
      foldlM_once.mpr (.inr ⟨pre, u, post, v + 1, rfl, others, reads, rfl⟩)
    exact ⟨v, by simp only [objectOf, steps, Option.map_some]⟩

theorem positive_brokerOf {t : Tree} : Positive brokerOf t ↔ ∃ b, t = .str b ∧ b ≠ [] := by
  cases t with
  | str b =>
      by_cases empty : b = []
      · simp [Positive, brokerOf, empty]
      · simp [Positive, brokerOf, empty]
  | _ => simp [Positive, brokerOf]

/-- What the scan makes of a document. -/
def topOf : Tree → Option Nat := objectOf (ascii K_MQTT) (objectOf (ascii K_BROKER) brokerOf)

theorem positive_topOf {t : Tree} : Positive topOf t ↔ HasBrokerBytes t := by
  have inner : Positive brokerOf = fun t => ∃ b, t = .str b ∧ b ≠ [] :=
    funext fun _ => propext positive_brokerOf
  have outer : Positive (objectOf (ascii K_BROKER) brokerOf) =
      OneMember (· = ascii K_BROKER) fun t => ∃ b, t = .str b ∧ b ≠ [] :=
    funext fun _ => propext (inner ▸ positive_objectOf)
  rw [topOf, positive_objectOf, outer]
  rfl

/-! ## The verdict -/

theorem mqttValue_finds :
    Finds 7 1 mqttValue (objectOf (ascii K_BROKER) brokerOf) :=
  object_finds (by decide) (brokerValue_finds 6 2)

theorem scanBroker_finds :
    Finds CMD_CONFIG_MAX_DEPTH 0
      (fun p => do
        let p ← skippedTo 0x7B p
        let (st, p) ← walkContainer true (soughtMember (ascii K_MQTT) mqttValue) (false, 0) p
        .ok (st.2, p)) topOf :=
  object_finds (by decide) mqttValue_finds

theorem scanBroker_eq (s : Bytes) :
    cmdConfigScanBroker ⟨s, 0⟩ =
      ((do
        let p ← skippedTo 0x7B ⟨s, 0⟩
        let (st, p) ← walkContainer true (soughtMember (ascii K_MQTT) mqttValue) (false, 0) p
        .ok (st.2, p)) >>= fun r =>
          if (cmdConfigSkipWs r.2).2 then .error .refused else .ok r.1) := by
  obtain refused | ⟨p, done, u, rfl, -⟩ := skippedTo_yields 0x7B ⟨s, 0⟩
  · simp only [cmdConfigScanBroker, refused]
    rfl
  · simp only [cmdConfigScanBroker, done, ok_bind]
    cases walkContainer true (soughtMember (ascii K_MQTT) mqttValue) (false, 0)
        ⟨0x7B :: u, 0⟩ with
    | error stop => rfl
    | ok r => rfl

theorem skipWs_more (s : Bytes) (d : Nat) :
    (cmdConfigSkipWs ⟨s, d⟩).2 = false ↔ skipWs s = [] := by
  have same : cmdConfigSkipWs ⟨s, d⟩ = (⟨skipWs s, d⟩, !(skipWs s).isEmpty) := rfl
  rw [same]
  cases skipWs s <;> simp

/-- The scan ends without a fault, and its result on a text is that of `topOf` on its tree. -/
theorem scanBroker_yields (s : Bytes) :
    Yields (cmdConfigScanBroker ⟨s, 0⟩) fun v =>
      ∃ t, Text ScanBody CMD_CONFIG_MAX_DEPTH s t ∧ topOf t = some v := by
  rw [scanBroker_eq]
  refine (scanBroker_finds.sound s).bind ?_
  rintro ⟨v, rest, d⟩ ⟨-, -, reads⟩
  cases more : (cmdConfigSkipWs ⟨rest, d⟩).2 with
  | true =>
      simp only [if_true]
      exact .refused
  | false =>
      simp only [Bool.false_eq_true, if_false]
      have ends := (skipWs_more rest d).mp more
      obtain ⟨t, value, gives⟩ := reads (ended_of_skipWs_nil ends)
      exact .ok ⟨t, ⟨rest, value, ends⟩, gives⟩

theorem scanBroker_complete {s : Bytes} {t : Tree} {v : Nat}
    (text : Text ScanBody CMD_CONFIG_MAX_DEPTH s t) (gives : topOf t = some v) :
    cmdConfigScanBroker ⟨s, 0⟩ = .ok v := by
  obtain ⟨rest, value, ends⟩ := text
  have more := (skipWs_more rest 0).mpr ends
  rw [scanBroker_eq, scanBroker_finds.complete s v rest ⟨t, value, gives⟩]
  simp [more]

/-- The verdict on a payload under the cap: the scan's reading has a broker, or a refusal. -/
theorem cmdConfigVerdict_eq {payload : Bytes} (short : payload.length < CMD_CONFIG_MAX) :
    ∃ verdict, cmdConfigVerdict true (some payload) = .ok verdict ∧
      (verdict = .ok ↔
        ∃ t, Text ScanBody CMD_CONFIG_MAX_DEPTH payload t ∧ HasBrokerBytes t) := by
  by_cases empty : payload.length = 0
  · refine ⟨.refuseShape, by simp [cmdConfigVerdict, empty], ?_⟩
    constructor
    · simp
    · rintro ⟨t, ⟨rest, value, -⟩, -⟩
      obtain ⟨c, u, first, -⟩ := Value.headed _ _ _ _ value
      rw [List.length_eq_zero_iff.mp empty] at first
      simp [skipWs] at first
  · have checked : ¬(payload.length = 0 ∨ CMD_CONFIG_MAX ≤ payload.length) := by omega
    simp only [cmdConfigVerdict, checked, if_false, Bool.not_true, Bool.false_eq_true]
    have positive {t : Tree} (text : Text ScanBody CMD_CONFIG_MAX_DEPTH payload t)
        (broker : HasBrokerBytes t) : ∃ v, cmdConfigScanBroker ⟨payload, 0⟩ = .ok (v + 1) := by
      obtain ⟨v, gives⟩ := positive_topOf.mpr broker
      exact ⟨v, scanBroker_complete text gives⟩
    obtain refused | ⟨v, done, t, text, gives⟩ := scanBroker_yields payload
    · refine ⟨.refuseShape, by rw [refused], ?_⟩
      constructor
      · simp
      · rintro ⟨t, text, broker⟩
        obtain ⟨v, done⟩ := positive text broker
        simp [done] at refused
    · rw [done]
      cases v with
      | zero =>
          refine ⟨.refuseBroker, rfl, ?_⟩
          constructor
          · simp
          · rintro ⟨t, text, broker⟩
            obtain ⟨v, again⟩ := positive text broker
            simp [done] at again
      | succ v => exact ⟨.ok, rfl, fun _ => ⟨t, text, positive_topOf.mp ⟨v, gives⟩⟩, fun _ => rfl⟩

/-! ## The document that is applied -/

theorem docBroker_setPrefix (p : Str) {doc : Json} (broker : docBroker doc ≠ []) :
    docBroker (setPrefix p doc) = docBroker doc := by
  have other : K_BROKER ≠ K_TOPIC_PREFIX := by decide
  cases doc with
  | obj ds =>
      cases mqtt : Json.getMember K_MQTT ds with
      | none => simp [docBroker, Json.member, mqtt, Json.asStr] at broker
      | some m =>
          cases m with
          | obj ms =>
              simp [docBroker, setPrefix, Json.assign, Json.member, mqtt,
                Json.getMember_setMember_ne other]
          | _ => simp [docBroker, Json.member, mqtt, Json.asStr] at broker
  | _ => simp [docBroker, Json.member, Json.asStr] at broker

theorem docBroker_hold (c : ConfigUnit) (p : Str) (broker : docBroker c.live ≠ []) :
    docBroker (c.holdTopicPrefix p).1.live = docBroker c.live := by
  simp only [ConfigUnit.holdTopicPrefix]
  split
  · rfl
  · split
    · exact docBroker_setPrefix p broker
    · rfl
  · split
    · exact docBroker_setPrefix p broker
    · rfl

/-- What is applied has a broker, whatever was scanned. -/
theorem apply_broker {deserializeJson : Reader} {c : ConfigUnit} {json : Str} {write : WriteIo}
    {load : LoadIo}
    (applied : (mqttApplyCmdConfig deserializeJson c json write load).2 = .ok ()) :
    docBroker (mqttApplyCmdConfig deserializeJson c json write load).1.live ≠ [] := by
  simp only [mqttApplyCmdConfig] at applied ⊢
  cases parses : deserializeJson json with
  | error left => simp [parses] at applied
  | ok doc =>
      simp only [parses] at applied ⊢
      split at applied
      · simp at applied
      · rename_i object
        split at applied
        · simp at applied
        · rename_i broker
          split at applied
          · simp at applied
          · rename_i fits
            rw [if_neg object, if_neg broker, if_neg fits]
            cases incoming : docPrefix doc with
            | none => simp [incoming] at applied
            | some incomingPrefix =>
                simp only [incoming] at applied ⊢
                split at applied
                · simp at applied
                · rename_i room
                  rw [if_neg room]
                  split at applied
                  · simp at applied
                  · rename_i saved
                    rw [if_neg saved]
                    obtain ⟨pushed, same, built⟩ := replace_ok (by simpa using saved)
                    obtain rfl : doc = pushed := Except.ok.inj (parses.symm.trans same)
                    have live :
                        docBroker (c.replace deserializeJson json write load).1.live ≠ [] := by
                      rw [built]
                      exact broker
                    split
                    · rwa [docBroker_hold _ _ live]
                    · exact live

/-- What is promised of a payload on a verified session, and of what is applied later. -/
def ScanKeeps (payload : Bytes) : Prop :=
  (∃ verdict, cmdConfigVerdict true (some payload) = .ok verdict ∧
    (verdict = .ok ↔ ConfigDocument payload)) ∧
  ∀ deserializeJson c json write load,
    (mqttApplyCmdConfig deserializeJson c json write load).2 = .ok () →
      docBroker (mqttApplyCmdConfig deserializeJson c json write load).1.live ≠ []

theorem configDocument_iff {payload : Bytes} :
    ConfigDocument payload ↔
      ∃ t, Text ScanBody CMD_CONFIG_MAX_DEPTH payload t ∧ RfcStrings t ∧ HasBroker t := by
  simp only [ConfigDocument, Text.narrows fun _ => scanBody_of_rfc, RfcStrings, and_assoc]

/-- The verdict is right on a payload that the scan does not misread, and on no other. -/
theorem scanKeeps_iff (payload : Bytes) (short : payload.length < CMD_CONFIG_MAX) :
    ScanKeeps payload ↔ ∀ t, Text ScanBody CMD_CONFIG_MAX_DEPTH payload t → ¬ Misread t := by
  obtain ⟨verdict, done, reads⟩ := cmdConfigVerdict_eq short
  constructor
  · rintro ⟨⟨verdict', done', keeps⟩, -⟩ t text misread
    obtain rfl : verdict = verdict' := Except.ok.inj (done.symm.trans done')
    rw [reads, configDocument_iff] at keeps
    obtain ⟨bytes, wrong⟩ | ⟨rfc, broker, escaped⟩ := misread
    · obtain ⟨t', text', rfc, broker⟩ := keeps.mp ⟨t, text, bytes⟩
      obtain rfl := Text.unique scanBody_cuts text text'
      obtain outside | escaped := wrong
      · exact outside rfc
      · exact escapedName_not_both escaped bytes broker
    · obtain ⟨t', text', bytes⟩ := keeps.mpr ⟨t, text, rfc, broker⟩
      obtain rfl := Text.unique scanBody_cuts text text'
      exact escapedName_not_both escaped bytes broker
  · intro never
    refine ⟨⟨verdict, done, ?_⟩, fun _ _ _ _ _ => apply_broker⟩
    rw [reads, configDocument_iff]
    constructor
    · rintro ⟨t, text, bytes⟩
      have fine := never t text
      have rfc : RfcStrings t := by
        by_contra outside
        exact fine (.inl ⟨bytes, .inl outside⟩)
      have plain : ¬ EscapedName t := fun escaped => fine (.inl ⟨bytes, .inr escaped⟩)
      exact ⟨t, text, rfc, (hasBroker_iff rfc plain).mp bytes⟩
    · rintro ⟨t, text, rfc, broker⟩
      have plain : ¬ EscapedName t := fun escaped => never t text (.inr ⟨rfc, broker, escaped⟩)
      exact ⟨t, text, (hasBroker_iff rfc plain).mpr broker⟩

theorem scanKeeps_iff_pushed :
    ScanKeeps (ascii "\x7b\"mqtt\":\x7b\"broker\":\"b\"\x7d\x7d".toList) ↔
      ∀ t, Text ScanBody CMD_CONFIG_MAX_DEPTH
        (ascii "\x7b\"mqtt\":\x7b\"broker\":\"b\"\x7d\x7d".toList) t → ¬ Misread t :=
  scanKeeps_iff _ (by decide +kernel)

/-! ### A broker that is no JSON string -/

/-- The broker is a backslash and a `q`. -/
def badEscape : Bytes := ascii "\x7b\"mqtt\":\x7b\"broker\":\"\\q\"\x7d\x7d".toList

def badEscapeTree : Tree :=
  .node true [(ascii K_MQTT, .node true [(ascii K_BROKER, .str [BACKSLASH, 0x71])])]

theorem badEscape_text : Text ScanBody CMD_CONFIG_MAX_DEPTH badEscape badEscapeTree := by
  have cut : badEscape = opening true :: QUOTE :: (ascii K_MQTT ++ QUOTE :: COLON ::
      opening true :: QUOTE :: (ascii K_BROKER ++ QUOTE :: COLON ::
        QUOTE :: ([BACKSLASH, 0x71] ++ QUOTE :: [closing true, closing true]))) := by
    decide +kernel
  have mqtt : ScanBody (ascii K_MQTT) := scanBody_of_rfc ⟨_, spelled_mqtt⟩
  have broker : ScanBody (ascii K_BROKER) := scanBody_of_rfc ⟨_, spelled_broker⟩
  have string : Value ScanBody 6
      (QUOTE :: ([BACKSLASH, 0x71] ++ QUOTE :: [closing true, closing true]))
      (.str [BACKSLASH, 0x71]) [closing true, closing true] :=
    Value.of_leaf (.str ⟨1, .escaped .nil⟩) 6
  have object : Value ScanBody 7 (opening true :: QUOTE :: (ascii K_BROKER ++ QUOTE :: COLON ::
      QUOTE :: ([BACKSLASH, 0x71] ++ QUOTE :: [closing true, closing true])))
      (.node true [(ascii K_BROKER, .str [BACKSLASH, 0x71])]) [closing true] :=
    .inr (.members (.last (.name broker (skipWs_of_not_ws rfl _)) string rfl))
  have document : Value ScanBody 8 (opening true :: QUOTE :: (ascii K_MQTT ++ QUOTE :: COLON ::
      opening true :: QUOTE :: (ascii K_BROKER ++ QUOTE :: COLON ::
        QUOTE :: ([BACKSLASH, 0x71] ++ QUOTE :: [closing true, closing true])))) badEscapeTree [] :=
    .inr (.members (.last (.name mqtt (skipWs_of_not_ws rfl _)) object rfl))
  rw [cut]
  exact ⟨[], document, rfl⟩

theorem not_rfcBody_badEscape : ¬ RfcBody [BACKSLASH, 0x71] := by
  rintro ⟨ns, decodes⟩
  generalize same : [BACKSLASH, 0x71] = b at decodes
  cases decodes with
  | nil => simp at same
  | cons character rest =>
      cases character with
      | unescaped utf8 _ _ slash =>
          cases utf8 with
          | one low =>
              obtain ⟨rfl, -⟩ := List.cons.inj same
              exact slash rfl
          | two least _ _ =>
              obtain ⟨rfl, -⟩ := List.cons.inj same
              exact absurd least (by decide)
          | three least _ _ _ _ _ =>
              obtain ⟨rfl, -⟩ := List.cons.inj same
              exact absurd least (by decide)
          | four least _ _ _ _ _ _ =>
              obtain ⟨rfl, -⟩ := List.cons.inj same
              exact absurd least (by decide)
      | short known =>
          obtain ⟨rfl, -⟩ := List.cons.inj (List.cons.inj same).2
          simp [SHORT_ESCAPES] at known
      | unicode => simp at same

theorem badEscape_accepted : ¬ ScanKeeps badEscape := by
  rintro ⟨⟨verdict, done, keeps⟩, -⟩
  have accepted : cmdConfigVerdict true (some badEscape) = .ok .ok := by decide +kernel
  obtain rfl : CmdConfigVerdict.ok = verdict := Except.ok.inj (accepted.symm.trans done)
  obtain ⟨t, text, rfc, -⟩ := configDocument_iff.mp (keeps.mp rfl)
  obtain rfl := Text.unique scanBody_cuts badEscape_text text
  exact not_rfcBody_badEscape (rfc _ (by simp [badEscapeTree, Tree.strings, memberStrings]))

end Thesada.Config
