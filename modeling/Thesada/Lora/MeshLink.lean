import Mathlib.Data.List.Nodup
import Thesada.Library.CounterMode
import Thesada.Lora.DedupRing
import Thesada.Lora.MeshFrame
import Thesada.Lora.MeshKey

/-!
# Text over a mesh

`buildText` and `parseText` put AES in counter mode between the codec and the radio: the nonce is
the packet id and the sender, both of which stand in the clear in the header. The block cipher is a
parameter. A body of at most 240 bytes is fifteen blocks, so the counter stays in the last byte of
the nonce.

A mesh is any number of nodes in `meshtastic` mode and the frames that were ever on the air. Which
node sends or hears what, how often a frame is relayed and which copies are lost is a part of the
run. A relay rewrites the hop fields and nothing else.
-/

namespace Thesada.Lora

open Machine

/-- A key and a block to the enciphered block. -/
abbrev BlockCipher := List UInt8 → List UInt8 → List UInt8

def PORT_TEXT : UInt32 := 1
def BROADCAST : UInt32 := 0xFFFFFFFF

/-- `PacketHeader`'s defaults with the fields `buildText` sets. -/
def textHeader (hash : UInt8) (fromNode packetId : UInt32) : Header where
  dest := BROADCAST
  src := fromNode
  packetId := packetId
  hopLimit := 3
  wantAck := false
  viaMQTT := false
  hopStart := 3
  channelHash := hash
  nextHop := 0
  relayNode := 0

def nonceBuild (packetId fromNode : UInt32) : List UInt8 :=
  putLE32 packetId ++ [0, 0, 0, 0] ++ putLE32 fromNode ++ [0, 0, 0, 0]

/-- One up, from the byte that is first. -/
def carry : List UInt8 → List UInt8
  | [] => []
  | b :: rest => if b + 1 = 0 then 0 :: carry rest else (b + 1) :: rest

/-- The counter of `mbedtls_aes_crypt_ctr`, the last byte first. -/
def nextCounter (nonce : List UInt8) : List UInt8 := (carry nonce.reverse).reverse

def aesCtr (aes : BlockCipher) (key : List UInt8) (fromNode packetId : UInt32)
    (buf : List UInt8) : List UInt8 :=
  if key = [] then buf
  else CounterMode.crypt (aes key) nextCounter 16 (nonceBuild packetId fromNode) 0 [] buf

def TEXT_MAX : Nat := 240

def buildText (aes : BlockCipher) (ch : MeshChannel) (text : List UInt8)
    (fromNode packetId : UInt32) (cap : Nat) : Option (List UInt8) :=
  (dataEncode PORT_TEXT text TEXT_MAX).bind fun data =>
    frameBuild (textHeader ch.hash fromNode packetId) (aesCtr aes ch.key fromNode packetId data) cap

inductive Parse where
  | ok (text : List UInt8) (fromNode packetId : UInt32)
  | notOurs
  | foreignPort (portnum : UInt32)
  | malformed
  deriving DecidableEq

def parseText (aes : BlockCipher) (ch : MeshChannel) (buf : List UInt8) : Parse :=
  match frameSplit buf with
  | none => .malformed
  | some (h, body) =>
      if body = [] then .malformed
      else if h.channelHash ≠ ch.hash then .notOurs
      else if TEXT_MAX < body.length then .malformed
      else
        match dataDecode (aesCtr aes ch.key h.src h.packetId body) with
        | none => .malformed
        | some (portnum, payload) =>
            if portnum ≠ PORT_TEXT then .foreignPort portnum else .ok payload h.src h.packetId

/-! ## The nonce and its counters -/

theorem nextCounter_low (front : List UInt8) (b : UInt8) (low : b ≠ 255) :
    nextCounter (front ++ [b]) = front ++ [b + 1] := by
  have no : b + 1 ≠ 0 := by
    intro zero
    apply low
    have back : b = (b + 1) + 255 := by
      rw [UInt8.add_assoc]
      exact (UInt8.add_zero b).symm
    rw [back, zero]
    rfl
  simp [nextCounter, carry, no]

/-- Fifteen blocks on, only the last byte has moved. -/
theorem nextCounter_iterate (packetId fromNode : UInt32) {i : Nat} (few : i < 16) :
    nextCounter^[i] (nonceBuild packetId fromNode) =
      putLE32 packetId ++ [0, 0, 0, 0] ++ putLE32 fromNode ++ [0, 0, 0] ++ [UInt8.ofNat i] := by
  induction i with
  | zero => simp [nonceBuild]
  | succ i ih =>
      have low : UInt8.ofNat i ≠ 255 := by
        intro top
        have value := congrArg UInt8.toNat top
        rw [UInt8.toNat_ofNat', Nat.mod_eq_of_lt (by omega)] at value
        have : i = 255 := value
        omega
      rw [Function.iterate_succ_apply', ih (by omega), nextCounter_low _ _ low]
      congr 2
      rw [← UInt8.toNat_inj, UInt8.toNat_add, UInt8.toNat_ofNat', UInt8.toNat_ofNat',
        Nat.mod_eq_of_lt (by omega : i < 2 ^ 8), Nat.mod_eq_of_lt (by omega : i + 1 < 2 ^ 8)]
      exact Nat.mod_eq_of_lt (show i + 1 < 2 ^ 8 by omega)

theorem putLE32_inj {v w : UInt32} (same : putLE32 v = putLE32 w) : v = w := by
  simp only [putLE32, List.cons.injEq, and_true] at same
  rw [← getLE32_putLE32 v, ← getLE32_putLE32 w, same.1, same.2.1, same.2.2.1, same.2.2.2]

/-- The blocks enciphered for a body of a frame. -/
def bodyCounters (packetId fromNode : UInt32) (n : Nat) : List (List UInt8) :=
  CounterMode.counters nextCounter 16 (nonceBuild packetId fromNode) 0 n

theorem bodyCounters_eq (packetId fromNode : UInt32) {n : Nat} (fits : n ≤ TEXT_MAX) :
    bodyCounters packetId fromNode n = (List.range ((n + 15) / 16)).map fun i =>
      putLE32 packetId ++ [0, 0, 0, 0] ++ putLE32 fromNode ++ [0, 0, 0] ++ [UInt8.ofNat i] := by
  have bound : n ≤ 240 := fits
  rw [bodyCounters, CounterMode.counters_fresh (by decide)]
  refine List.map_congr_left fun i member => ?_
  have few := List.mem_range.mp member
  exact nextCounter_iterate packetId fromNode (by omega)

theorem aesCtr_length (aes : BlockCipher) (key : List UInt8) (fromNode packetId : UInt32)
    (buf : List UInt8) : (aesCtr aes key fromNode packetId buf).length = buf.length := by
  unfold aesCtr
  split
  · rfl
  · exact CounterMode.crypt_length _ _ _ _

theorem aesCtr_aesCtr (aes : BlockCipher) (key : List UInt8) (fromNode packetId : UInt32)
    (buf : List UInt8) :
    aesCtr aes key fromNode packetId (aesCtr aes key fromNode packetId buf) = buf := by
  unfold aesCtr
  split
  · rfl
  · exact CounterMode.crypt_crypt _ _ _ _

/-! ## A frame and its readers -/

theorem dataEncoding_length (text : List UInt8) : 0 < (dataEncoding PORT_TEXT text).length := by
  simp [dataEncoding]

theorem dataEncoding_room {text : List UInt8}
    (fits : (dataEncoding PORT_TEXT text).length ≤ TEXT_MAX) : text.length < 2 ^ 32 := by
  simp only [dataEncoding, List.length_append, List.length_cons, TEXT_MAX] at fits
  omega

theorem dataEncode_room {portnum : UInt32} {payload data : List UInt8} {cap : Nat}
    (encoded : dataEncode portnum payload cap = some data) : payload.length ≤ cap := by
  unfold dataEncode at encoded
  split at encoded
  · cases encoded
  split at encoded
  · cases encoded
  dsimp only at encoded
  split at encoded
  · cases encoded
  split at encoded
  · cases encoded
  split at encoded
  · cases encoded
  · omega

/-- A text whose message fits its buffer and whose frame fits `out` is built, and no other. -/
theorem buildText_eq (aes : BlockCipher) (ch : MeshChannel) {text : List UInt8}
    (short : text.length < 2 ^ 32) (fromNode packetId : UInt32) (cap : Nat) :
    buildText aes ch text fromNode packetId cap =
      if (dataEncoding PORT_TEXT text).length ≤ TEXT_MAX ∧
          HEADER_LEN + (dataEncoding PORT_TEXT text).length ≤ cap then
        some (headerPack (textHeader ch.hash fromNode packetId) ++
          aesCtr aes ch.key fromNode packetId (dataEncoding PORT_TEXT text))
      else none := by
  rw [buildText, dataEncode_eq PORT_TEXT short]
  by_cases fits : (dataEncoding PORT_TEXT text).length ≤ TEXT_MAX
  · rw [if_pos fits, Option.bind_some, frameBuild, aesCtr_length]
    by_cases room : HEADER_LEN + (dataEncoding PORT_TEXT text).length ≤ cap
    · rw [if_neg (by omega), if_pos ⟨fits, room⟩]
    · rw [if_pos (by omega), if_neg (by tauto)]
  · rw [if_neg fits, if_neg (by tauto)]
    rfl

/-- A frame with the body of a text, read on any channel with the key or with another hash. -/
theorem parseText_frame (aes : BlockCipher) (ch : MeshChannel) {h : Header} (hops : h.Fits)
    {key text : List UInt8} (fits : (dataEncoding PORT_TEXT text).length ≤ TEXT_MAX)
    (known : h.channelHash = ch.hash → ch.key = key) :
    parseText aes ch
        (headerPack h ++ aesCtr aes key h.src h.packetId (dataEncoding PORT_TEXT text)) =
      if h.channelHash = ch.hash then .ok text h.src h.packetId else .notOurs := by
  have size := aesCtr_length aes key h.src h.packetId (dataEncoding PORT_TEXT text)
  have full : aesCtr aes key h.src h.packetId (dataEncoding PORT_TEXT text) ≠ [] := by
    have pos := dataEncoding_length text
    intro none
    rw [none, List.length_nil] at size
    omega
  have behind : (headerPack h ++ aesCtr aes key h.src h.packetId
      (dataEncoding PORT_TEXT text)).drop HEADER_LEN =
        aesCtr aes key h.src h.packetId (dataEncoding PORT_TEXT text) :=
    List.drop_left' (headerPack_length h)
  simp only [parseText, frameSplit, headerParse_headerPack hops, behind, if_neg full]
  by_cases ours : h.channelHash = ch.hash
  · rw [if_neg (not_not_intro ours), if_pos ours, if_neg (by omega), known ours, aesCtr_aesCtr,
      dataDecode_dataEncoding PORT_TEXT (dataEncoding_room fits)]
    rfl
  · rw [if_pos ours, if_neg ours]

/-! ## A mesh -/

/-- A node with its radio up. -/
structure MeshNode where
  chan : MeshChannel
  nodeNum : UInt32
  listening : Bool
  rxSeen : DedupRun
  rxCount : Nat
  rxDupCount : Nat
  /-- What it has published, the newest first. -/
  published : List (UInt32 × UInt32 × List UInt8)

/-- A frame that was on the air, and whose text it is. -/
structure AirFrame where
  bytes : List UInt8
  origin : Nat
  packetId : UInt32
  text : List UInt8

structure Mesh where
  nodes : Nat → MeshNode
  air : List AirFrame

inductive MeshEvent where
  /-- `transmit`, with what `esp_random` gives; a refused frame may have left the antenna. -/
  | send (i : Nat) (text : List UInt8) (random : UInt32) (left : Bool)
  /-- A node repeats the `k`-th frame with hop fields of its own. -/
  | relay (k : Nat) (hopLimit hopStart nextHop relayNode : UInt8) (wantAck viaMQTT : Bool)
  /-- `loop` polls the `k`-th frame. -/
  | hear (i k : Nat) (received crcErr : Bool)
  | setListening (i : Nat) (on : Bool)

/-- `publishRx` up to the MQTT message. -/
def publishRx (aes : BlockCipher) (node : MeshNode) (data : List UInt8) : MeshNode :=
  match parseText aes node.chan data with
  | .ok text fromNode packetId =>
      if (node.rxSeen.ring.seenAndRecord 64 (fromNode, packetId)).1 then
        { node with
          rxSeen := node.rxSeen.call 64 (fromNode, packetId)
          rxDupCount := node.rxDupCount + 1 }
      else
        { node with
          rxSeen := node.rxSeen.call 64 (fromNode, packetId)
          published := (fromNode, packetId, text) :: node.published }
  | _ => node

/-- `LoRaModule::loop` with a packet there. -/
def loraLoop (aes : BlockCipher) (node : MeshNode) (data : List UInt8) (received crcErr : Bool) :
    MeshNode :=
  if !node.listening then node
  else
    let counted := { node with rxCount := node.rxCount + 1 }
    if received && !crcErr then publishRx aes counted data else counted

/-- The frame of `transmit`. -/
def transmitFrame (aes : BlockCipher) (node : MeshNode) (text : List UInt8) (random : UInt32) :
    Option (List UInt8) :=
  buildText aes node.chan text node.nodeNum (if random = 0 then 1 else random) 256

/-- The frame with other hop fields. -/
def relayed (bytes : List UInt8) (hopLimit hopStart nextHop relayNode : UInt8)
    (wantAck viaMQTT : Bool) : Option (List UInt8) :=
  (frameSplit bytes).map fun (h, body) =>
    headerPack
      { h with
        hopLimit := hopLimit &&& 0x07
        hopStart := hopStart &&& 0x07
        nextHop := nextHop
        relayNode := relayNode
        wantAck := wantAck
        viaMQTT := viaMQTT } ++ body

def meshStep (aes : BlockCipher) (m : Mesh) : MeshEvent → Mesh
  | .send i text random left =>
      match transmitFrame aes (m.nodes i) text random with
      | some bytes =>
          if left then
            { m with air := m.air ++ [⟨bytes, i, if random = 0 then 1 else random, text⟩] }
          else m
      | none => m
  | .relay k hopLimit hopStart nextHop relayNode wantAck viaMQTT =>
      match m.air[k]? with
      | none => m
      | some f =>
          match relayed f.bytes hopLimit hopStart nextHop relayNode wantAck viaMQTT with
          | none => m
          | some bytes => { m with air := m.air ++ [{ f with bytes := bytes }] }
  | .hear i k received crcErr =>
      match m.air[k]? with
      | none => m
      | some f =>
          { m with
            nodes := Function.update m.nodes i
              (loraLoop aes (m.nodes i) f.bytes received crcErr) }
  | .setListening i on =>
      { m with nodes := Function.update m.nodes i { m.nodes i with listening := on } }

/-! ## What a mesh delivers -/

/-- Nodes after their boot. -/
def Mesh.boot (chan : Nat → MeshChannel) (nodeNum : Nat → UInt32) : Mesh :=
  ⟨fun i => ⟨chan i, nodeNum i, true, .start, 0, 0, []⟩, []⟩

/-- The ids of what a node has published. -/
def MeshNode.ids (node : MeshNode) : List Packet := node.published.map fun x => (x.1, x.2.1)

section Delivery

variable {aes : BlockCipher} {chan : Nat → MeshChannel} {nodeNum : Nat → UInt32}

/-- A frame as its sender built it, up to its hop fields. -/
def Framed (aes : BlockCipher) (chan : Nat → MeshChannel) (nodeNum : Nat → UInt32)
    (f : AirFrame) : Prop :=
  ∃ h : Header, h.Fits ∧ h.src = nodeNum f.origin ∧ h.packetId = f.packetId ∧
    h.channelHash = (chan f.origin).hash ∧ f.packetId ≠ 0 ∧
    (dataEncoding PORT_TEXT f.text).length ≤ TEXT_MAX ∧
    f.bytes = headerPack h ++
      aesCtr aes (chan f.origin).key h.src h.packetId (dataEncoding PORT_TEXT f.text)

structure MeshNode.Keeps (chan : MeshChannel) (nodeNum : UInt32) (node : MeshNode) : Prop where
  chan_eq : node.chan = chan
  nodeNum_eq : node.nodeNum = nodeNum
  window : node.rxSeen.Holds 64
  ids_eq : node.ids = node.rxSeen.recorded

structure Mesh.Good (aes : BlockCipher) (chan : Nat → MeshChannel) (nodeNum : Nat → UInt32)
    (m : Mesh) : Prop where
  nodes : ∀ i, (m.nodes i).Keeps (chan i) (nodeNum i)
  air : ∀ f ∈ m.air, Framed aes chan nodeNum f
  sent : ∀ i, ∀ x ∈ (m.nodes i).published, ∃ f ∈ m.air,
    x = (nodeNum f.origin, f.packetId, f.text) ∧ (chan f.origin).hash = (chan i).hash

theorem textHeader_fits (hash : UInt8) (fromNode packetId : UInt32) :
    (textHeader hash fromNode packetId).Fits :=
  ⟨show (3 : UInt8) ≤ 7 by decide, show (3 : UInt8) ≤ 7 by decide⟩

theorem transmitFrame_framed {node : MeshNode} {text : List UInt8} {random : UInt32} {i : Nat}
    (setup : node.chan = chan i ∧ node.nodeNum = nodeNum i) {bytes : List UInt8}
    (built : transmitFrame aes node text random = some bytes) :
    Framed aes chan nodeNum ⟨bytes, i, if random = 0 then 1 else random, text⟩ := by
  have short : text.length < 2 ^ 32 := by
    obtain ⟨data, encoded, -⟩ := Option.bind_eq_some_iff.mp built
    have room := dataEncode_room encoded
    simp only [TEXT_MAX] at room
    omega
  rw [transmitFrame, buildText_eq aes node.chan short, setup.1, setup.2] at built
  split at built
  · rename_i fits
    cases built
    refine ⟨_, textHeader_fits _ _ _, rfl, rfl, rfl, ?_, fits.1, rfl⟩
    by_cases none : random = 0
    · simp [none]
    · simp [none]
  · cases built

theorem and_seven_le (b : UInt8) : b &&& 0x07 ≤ 7 := by
  rw [UInt8.le_iff_toNat_le, UInt8.toNat_and]
  exact Nat.and_le_right

/-- A relay changes nothing that a reader reads. -/
theorem relayed_framed {f : AirFrame} (framed : Framed aes chan nodeNum f)
    {hopLimit hopStart nextHop relayNode : UInt8} {wantAck viaMQTT : Bool} {bytes : List UInt8}
    (again : relayed f.bytes hopLimit hopStart nextHop relayNode wantAck viaMQTT = some bytes) :
    Framed aes chan nodeNum { f with bytes := bytes } := by
  obtain ⟨h, hops, src, id, hash, tracked, fits, eq⟩ := framed
  rw [relayed, eq, frameSplit, headerParse_headerPack hops] at again
  cases again
  refine ⟨{ h with
    hopLimit := hopLimit &&& 0x07
    hopStart := hopStart &&& 0x07
    nextHop := nextHop
    relayNode := relayNode
    wantAck := wantAck
    viaMQTT := viaMQTT },
    ⟨and_seven_le _, and_seven_le _⟩, src, id, hash, tracked, fits, ?_⟩
  exact congrArg (headerPack _ ++ ·) (List.drop_left' (headerPack_length h))

variable (distinct : ∀ i j, (chan i).hash = (chan j).hash → (chan i).key = (chan j).key)
include distinct

/-- What a node makes of a frame it reads. -/
theorem publishRx_framed {node : MeshNode} {i : Nat} (keeps : node.Keeps (chan i) (nodeNum i))
    {f : AirFrame} (framed : Framed aes chan nodeNum f) :
    (publishRx aes node f.bytes).Keeps (chan i) (nodeNum i) ∧
      (publishRx aes node f.bytes).published =
        if (chan f.origin).hash = (chan i).hash ∧
            (nodeNum f.origin, f.packetId) ∉ node.ids.take 64 then
          (nodeNum f.origin, f.packetId, f.text) :: node.published
        else node.published := by
  obtain ⟨h, hops, src, id, hash, tracked, fits, eq⟩ := framed
  have known : h.channelHash = node.chan.hash → node.chan.key = (chan f.origin).key := by
    rw [keeps.chan_eq, hash]
    exact fun same => distinct i f.origin same.symm
  have parsed := parseText_frame aes node.chan hops fits known
  rw [publishRx, eq, parsed, keeps.chan_eq, hash, src, id]
  by_cases ours : (chan f.origin).hash = (chan i).hash
  · simp only [ours, if_true, true_and]
    have reports := keeps.window.reports (nodeNum f.origin, f.packetId)
    rw [← keeps.ids_eq] at reports
    have after := keeps.window.call (nodeNum f.origin, f.packetId)
    by_cases seen : (nodeNum f.origin, f.packetId) ∈ node.ids.take 64
    · rw [if_pos (reports.mpr ⟨tracked, seen⟩), if_neg (not_not_intro seen)]
      refine ⟨⟨rfl, keeps.nodeNum_eq, after, ?_⟩, rfl⟩
      have known : node.rxSeen.ring.seen (nodeNum f.origin, f.packetId) = true := by
        have reported := reports.mpr ⟨tracked, seen⟩
        unfold DedupRing.seenAndRecord at reported
        rw [if_neg tracked] at reported
        by_contra unseen
        simp [unseen] at reported
      simp only [DedupRun.call, tracked, known, or_true, if_true]
      exact keeps.ids_eq
    · rw [if_neg (fun reported => seen (reports.mp reported).2), if_pos seen]
      refine ⟨⟨rfl, keeps.nodeNum_eq, after, ?_⟩, rfl⟩
      have unknown : ¬node.rxSeen.ring.seen (nodeNum f.origin, f.packetId) = true := by
        intro known
        refine seen (reports.mp ?_).2
        simp [DedupRing.seenAndRecord, tracked, known]
      simp only [DedupRun.call, tracked, unknown]
      exact congrArg (_ :: ·) keeps.ids_eq
  · simp only [ours, if_false, false_and]
    exact ⟨keeps, trivial⟩

theorem loraLoop_framed {node : MeshNode} {i : Nat} (keeps : node.Keeps (chan i) (nodeNum i))
    {f : AirFrame} (framed : Framed aes chan nodeNum f) (received crcErr : Bool) :
    (loraLoop aes node f.bytes received crcErr).Keeps (chan i) (nodeNum i) ∧
      (loraLoop aes node f.bytes received crcErr).published =
        if node.listening = true ∧ received = true ∧ crcErr = false ∧
            (chan f.origin).hash = (chan i).hash ∧
            (nodeNum f.origin, f.packetId) ∉ node.ids.take 64 then
          (nodeNum f.origin, f.packetId, f.text) :: node.published
        else node.published := by
  have counted : ({ node with rxCount := node.rxCount + 1 } : MeshNode).Keeps (chan i)
      (nodeNum i) := ⟨keeps.chan_eq, keeps.nodeNum_eq, keeps.window, keeps.ids_eq⟩
  have heard := publishRx_framed distinct counted framed
  have same : ({ node with rxCount := node.rxCount + 1 } : MeshNode).ids = node.ids ∧
      ({ node with rxCount := node.rxCount + 1 } : MeshNode).published = node.published :=
    ⟨rfl, rfl⟩
  unfold loraLoop
  generalize ({ node with rxCount := node.rxCount + 1 } : MeshNode) = more at *
  rw [same.1, same.2] at heard
  cases node.listening with
  | false => exact ⟨by simpa using keeps, by simp⟩
  | true =>
      cases received with
      | false => exact ⟨by simpa using counted, by simpa using same.2⟩
      | true =>
          cases crcErr with
          | true => exact ⟨by simpa using counted, by simpa using same.2⟩
          | false => exact ⟨by simpa using heard.1, by simpa using heard.2⟩

/-- What one step leaves. -/
theorem Mesh.Good.step {m : Mesh} (good : m.Good aes chan nodeNum) (e : MeshEvent) :
    (meshStep aes m e).Good aes chan nodeNum := by
  have grows {f : AirFrame} (framed : Framed aes chan nodeNum f) :
      ({ m with air := m.air ++ [f] } : Mesh).Good aes chan nodeNum := by
    refine ⟨good.nodes, fun g member => ?_, fun i x published => ?_⟩
    · rcases List.mem_append.mp member with old | new
      · exact good.air g old
      · rw [List.mem_singleton.mp new]
        exact framed
    · obtain ⟨g, old, from_⟩ := good.sent i x published
      exact ⟨g, List.mem_append_left _ old, from_⟩
  cases e with
  | send i text random left =>
      simp only [meshStep]
      cases built : transmitFrame aes (m.nodes i) text random with
      | none => exact good
      | some bytes =>
          dsimp only
          split
          · exact grows (transmitFrame_framed
              ⟨(good.nodes i).chan_eq, (good.nodes i).nodeNum_eq⟩ built)
          · exact good
  | relay k hopLimit hopStart nextHop relayNode wantAck viaMQTT =>
      simp only [meshStep]
      cases there : m.air[k]? with
      | none => exact good
      | some f =>
          dsimp only
          split
          · exact good
          · rename_i bytes again
            exact grows (relayed_framed (good.air f (List.mem_of_getElem? there)) again)
  | hear i k received crcErr =>
      simp only [meshStep]
      cases there : m.air[k]? with
      | none => exact good
      | some f =>
          have member := List.mem_of_getElem? there
          obtain ⟨keeps, published⟩ := loraLoop_framed distinct (good.nodes i)
            (good.air f member) received crcErr
          dsimp only
          refine ⟨fun j => ?_, good.air, fun j x told => ?_⟩
          · by_cases same : j = i
            · subst same
              simpa using keeps
            · simpa [same] using good.nodes j
          · by_cases same : j = i
            · subst same
              dsimp only at told
              rw [Function.update_self, published] at told
              split at told
              · rename_i heard
                rcases List.mem_cons.mp told with rfl | old
                · exact ⟨f, member, rfl, heard.2.2.2.1⟩
                · exact good.sent j x old
              · exact good.sent j x told
            · dsimp only at told
              rw [Function.update_of_ne same] at told
              exact good.sent j x told
  | setListening i on =>
      refine ⟨fun j => ?_, good.air, fun j x told => ?_⟩
      · by_cases same : j = i
        · subst same
          have keeps := good.nodes j
          simpa [meshStep] using
            (⟨keeps.chan_eq, keeps.nodeNum_eq, keeps.window, keeps.ids_eq⟩ :
              ({ m.nodes j with listening := on } : MeshNode).Keeps (chan j) (nodeNum j))
        · simpa [meshStep, same] using good.nodes j
      · refine good.sent j x ?_
        by_cases same : j = i
        · subst same
          simpa [meshStep] using told
        · simpa [meshStep, same] using told

end Delivery

/-- The frame a listening node reads without an error in a step. -/
def MeshEvent.reads (m : Mesh) (i : Nat) : MeshEvent → Option AirFrame
  | .hear j k received crcErr =>
      if j = i ∧ (m.nodes i).listening = true ∧ received = true ∧ crcErr = false then m.air[k]?
      else none
  | _ => none

end Thesada.Lora
