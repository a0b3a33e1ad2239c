import Thesada.Library.CString
import Thesada.Library.Machine

/-!
# The device identity

Id, public key and secret key are three rows of NVS. A boot loads the id and the public key,
and mints a new pair when it cannot; the secret key is written first and the id last. Signing
loads the secret key again.

Which NVS call fails, which secret a mint draws and where the power goes is part of the event.
The signature scheme is a parameter: the public half of a secret.
-/

namespace Thesada.Identity

open CString Machine

abbrev Bytes := List Nat

def IDENTITY_ID_PREFIX : Str := "thesada-".toList
def IDENTITY_ID_HEX_LEN : Nat := 12
def IDENTITY_ID_CAP : Nat := 21
def IDENTITY_PUBKEY_LEN : Nat := 32
def IDENTITY_PUBKEY_HEX_CAP : Nat := 65
def SECRETKEYBYTES : Nat := 64

/-! ## `device_identity_policy.h` -/

def hexDigit (n : Nat) : Char := Nat.digitChar (n % 16)

def hexOf (buf : Bytes) : Str := buf.flatMap fun b => [hexDigit (b / 16), hexDigit b]

/-- The whole encoding, or nothing when it does not fit. -/
def identityHexEncode (buf : Bytes) (cap : Nat) : Option Str :=
  if (cap - 1) / 2 < buf.length then none else some (hexOf buf)

def identityDeviceIdFromMac (mac : Bytes) : Option Str :=
  (identityHexEncode mac (IDENTITY_ID_CAP - IDENTITY_ID_PREFIX.length)).map (IDENTITY_ID_PREFIX ++ ·)

def isIdHex (c : Char) : Bool := c.isDigit || ('a' ≤ c && c ≤ 'f')

def identityDeviceIdValid (id : Str) : Bool :=
  if !IDENTITY_ID_PREFIX.isPrefixOf id then false
  else
    let hex := id.drop IDENTITY_ID_PREFIX.length
    hex.all isIdHex && hex.length = IDENTITY_ID_HEX_LEN

def identityKeyMaterialPresent (key : Bytes) : Bool := key.any (· ≠ 0)

/-! ## The unit -/

/-- The `thesada-ident` namespace. -/
structure IdentNvs where
  deviceId : Option Str
  pk : Option Bytes
  sk : Option Bytes
  deriving DecidableEq

structure IdUnit where
  mac : Bytes
  nvs : IdentNvs
  /-- `_deviceId` and `_pubHex`. -/
  deviceId : Str
  pubHex : Str
  ready : Bool
  on : Bool

structure LoadIo where
  opens : Bool
  getId : Bool
  getPk : Bool

/-- A mint. `powerAfter` is how many writes go through before the power is cut, if it is. -/
structure MintIo where
  macReads : Bool
  sodiumInit : Bool
  keygen : Bool
  secret : Bytes
  opens : Bool
  setSk : Bool
  setPk : Bool
  setId : Bool
  commits : Bool
  powerAfter : Option Nat

/-- An erase. One that fails may have taken any of the rows. -/
structure EraseIo where
  opens : Bool
  erases : Bool
  takesId : Bool
  takesPk : Bool
  takesSk : Bool
  commits : Bool

structure SignIo where
  sodiumInit : Bool
  opens : Bool
  getSk : Bool

namespace IdUnit

variable (publicHalf : Bytes → Bytes)

/-- `nvs_get_str` of the id into its buffer. -/
def readId (n : IdentNvs) (io : LoadIo) : Option Str :=
  if io.getId then n.deviceId.filter fun id => id.length < IDENTITY_ID_CAP else none

def loadExisting (u : IdUnit) (io : LoadIo) : IdUnit × Bool :=
  if !io.opens then (u, false)
  else
    match (readId u.nvs io).filter fun id => identityDeviceIdValid id with
    | none => ({ u with deviceId := [] }, false)
    | some id =>
        match if io.getPk then u.nvs.pk else none with
        | none => ({ u with deviceId := [] }, false)
        | some pk =>
            if pk.length ≠ IDENTITY_PUBKEY_LEN ∨ !identityKeyMaterialPresent pk then
              ({ u with deviceId := [] }, false)
            else
              match identityHexEncode pk IDENTITY_PUBKEY_HEX_CAP with
              | none => ({ u with deviceId := id }, false)
              | some hex => ({ u with deviceId := id, pubHex := hex }, true)

/-- The three writes of a mint: the rows they leave, and whether the mint went through. -/
def mintWrites (n : IdentNvs) (id : Str) (io : MintIo) : IdentNvs × Bool :=
  if io.powerAfter = some 0 ∨ !io.setSk then (n, false)
  else
    let n := { n with sk := some io.secret }
    if io.powerAfter = some 1 ∨ !io.setPk then (n, false)
    else
      let n := { n with pk := some (publicHalf io.secret) }
      if io.powerAfter = some 2 ∨ !io.setId then (n, false)
      else ({ n with deviceId := some id }, io.commits)

def generate (u : IdUnit) (io : MintIo) : IdUnit × Bool :=
  if !io.macReads then (u, false)
  else
    match identityDeviceIdFromMac u.mac with
    | none => (u, false)
    | some id =>
        if !io.sodiumInit || !io.keygen || !io.opens then (u, false)
        else
          let (nvs, done) := mintWrites publicHalf u.nvs id io
          if done then
            match identityHexEncode (publicHalf io.secret) IDENTITY_PUBKEY_HEX_CAP with
            | none => ({ u with nvs, deviceId := id }, false)
            | some hex => ({ u with nvs, deviceId := id, pubHex := hex }, true)
          else ({ u with nvs }, false)

/-- `begin`. `canMint` is off in rescue builds. A power cut in a mint ends the call. -/
def begin (u : IdUnit) (canMint : Bool) (load : LoadIo) (mint : MintIo) : IdUnit × Bool :=
  if u.ready then (u, true)
  else
    let (u, loaded) := u.loadExisting load
    if loaded then ({ u with ready := true }, true)
    else if !canMint then (u, false)
    else
      let (u, minted) := u.generate publicHalf mint
      if mint.powerAfter.isSome then ({ u with on := false }, false)
      else if minted then ({ u with ready := true }, true)
      else (u, false)

def erase (u : IdUnit) (io : EraseIo) : IdUnit × Bool :=
  if !io.opens then (u, false)
  else if !io.erases then
    ({ u with nvs :=
        { deviceId := if io.takesId then none else u.nvs.deviceId
          pk := if io.takesPk then none else u.nvs.pk
          sk := if io.takesSk then none else u.nvs.sk } }, false)
  else
    let u := { u with nvs := { deviceId := none, pk := none, sk := none } }
    if io.commits then ({ u with deviceId := [], pubHex := [], ready := false }, true)
    else (u, false)

/-- The secret key `sign` uses, if it gets to use one. -/
def signKey (u : IdUnit) (io : SignIo) : Option Bytes :=
  if !u.ready || !io.sodiumInit || !io.opens then none
  else
    (if io.getSk then u.nvs.sk else none).filter fun sk =>
      sk.length = SECRETKEYBYTES && identityKeyMaterialPresent sk

def restarted (u : IdUnit) : IdUnit :=
  { u with deviceId := [], pubHex := [], ready := false, on := true }

end IdUnit

inductive IdEvent where
  | boot
  | begin (canMint : Bool) (load : LoadIo) (mint : MintIo)
  | erase (io : EraseIo)
  | powerCut

def idStep (publicHalf : Bytes → Bytes) (u : IdUnit) : IdEvent → IdUnit
  | .boot => u.restarted
  | .begin canMint load mint => if u.on then (u.begin publicHalf canMint load mint).1 else u
  | .erase io => if u.on then (u.erase io).1 else u
  | .powerCut => { u with on := false }

/-! ## What is promised -/

/-- The rows a load accepts. -/
def Loadable (n : IdentNvs) : Prop :=
  ∃ id pk, n.deviceId = some id ∧ identityDeviceIdValid id = true ∧ n.pk = some pk ∧
    pk.length = IDENTITY_PUBKEY_LEN ∧ identityKeyMaterialPresent pk = true

/-- A complete identity: what a load accepts, and a secret key. -/
def Complete (n : IdentNvs) : Prop := Loadable n ∧ n.sk.isSome = true

/-- A reported identity publishes the public half of the key `sign` uses, and a complete
identity keeps its key pair unless the event is an erase. -/
def Kept (publicHalf : Bytes → Bytes) (u : IdUnit) (e : IdEvent) : Prop :=
  (∀ canMint load mint, e = .begin canMint load mint → u.on = true →
    (u.begin publicHalf canMint load mint).2 = true →
    ∀ io sk, (u.begin publicHalf canMint load mint).1.signKey io = some sk →
      (u.begin publicHalf canMint load mint).1.pubHex = hexOf (publicHalf sk)) ∧
  (Complete u.nvs → (∀ io, e ≠ .erase io) →
    (idStep publicHalf u e).nvs.pk = u.nvs.pk ∧ (idStep publicHalf u e).nvs.sk = u.nvs.sk)

/-- What a load accepts agrees with the secret key beside it. -/
def Paired (publicHalf : Bytes → Bytes) (n : IdentNvs) : Prop :=
  Loadable n → ∀ sk, n.sk = some sk → n.pk = some (publicHalf sk)

/-- The mint gets its first write through. -/
def MintIo.writes (io : MintIo) (mac : Bytes) : Bool :=
  io.macReads && (identityDeviceIdFromMac mac).isSome && io.sodiumInit && io.keygen && io.opens &&
    io.powerAfter ≠ some 0 && io.setSk

/-- A begin that finds an identity it accepts reads it, or its mint writes nothing. -/
def ReadsStored (u : IdUnit) : IdEvent → Prop
  | .begin canMint load mint =>
      u.on = true → u.ready = false → Loadable u.nvs →
        (load.opens = true ∧ load.getId = true ∧ load.getPk = true) ∨
          (canMint && mint.writes u.mac) = false
  | _ => True

/-! ## Loads -/

theorem identityDeviceIdValid_length {id : Str} (valid : identityDeviceIdValid id = true) :
    id.length < IDENTITY_ID_CAP := by
  simp only [identityDeviceIdValid, Bool.not_eq_true', Bool.if_false_left, Bool.and_eq_true,
    decide_eq_true_eq, List.length_drop, IDENTITY_ID_HEX_LEN] at valid
  have named : IDENTITY_ID_PREFIX.length = 8 := by decide
  simp only [IDENTITY_ID_CAP]
  omega

theorem identityHexEncode_pubkey {pk : Bytes} (sized : pk.length = IDENTITY_PUBKEY_LEN) :
    identityHexEncode pk IDENTITY_PUBKEY_HEX_CAP = some (hexOf pk) := by
  simp [identityHexEncode, IDENTITY_PUBKEY_HEX_CAP, sized, IDENTITY_PUBKEY_LEN]

theorem identityHexEncode_some {buf : Bytes} {cap : Nat} {hex : Str}
    (encoded : identityHexEncode buf cap = some hex) : hex = hexOf buf := by
  simp only [identityHexEncode, Option.ite_none_left_eq_some, Option.some.injEq] at encoded
  exact encoded.2.symm

namespace IdUnit

variable {publicHalf : Bytes → Bytes} {u : IdUnit}

/-- A load that reports an identity found one it accepts and publishes its key. -/
theorem loadExisting_loaded {io : LoadIo} (loaded : (u.loadExisting io).2 = true) :
    Loadable u.nvs ∧ ∃ pk, u.nvs.pk = some pk ∧ (u.loadExisting io).1.pubHex = hexOf pk := by
  simp only [loadExisting] at loaded ⊢
  split at loaded
  · simp at loaded
  · split at loaded
    · simp at loaded
    · rename_i id found
      split at loaded
      · simp at loaded
      · rename_i pk stored
        split at loaded
        · simp at loaded
        · rename_i usable
          obtain ⟨read, valid⟩ := Option.filter_eq_some_iff.mp found
          simp only [not_or, not_not, Bool.not_eq_true', Bool.not_eq_false] at usable
          have named : u.nvs.deviceId = some id := by
            simp only [readId] at read
            split at read
            · exact (Option.filter_eq_some_iff.mp read).1
            · simp at read
          have key : u.nvs.pk = some pk := by
            split at stored
            · exact stored
            · simp at stored
          refine ⟨⟨id, pk, named, valid, key, usable.1, usable.2⟩, pk, key, ?_⟩
          simp [*, identityHexEncode_pubkey usable.1]

/-- Reads that land load whatever is accepted. -/
theorem loadExisting_of_loadable {io : LoadIo} (stored : Loadable u.nvs)
    (opens : io.opens = true) (getId : io.getId = true) (getPk : io.getPk = true) :
    (u.loadExisting io).2 = true := by
  obtain ⟨id, pk, named, valid, key, sized, present⟩ := stored
  simp [loadExisting, readId, opens, getId, getPk, named, valid, key, sized, present,
    Option.filter_some, identityDeviceIdValid_length valid, identityHexEncode_pubkey sized]

/-- A load changes only what RAM shows. -/
theorem loadExisting_keeps (u : IdUnit) (io : LoadIo) :
    ∃ id hex, (u.loadExisting io).1 = { u with deviceId := id, pubHex := hex } := by
  simp only [loadExisting]
  repeat' split
  all_goals exact ⟨_, _, rfl⟩

/-! ## Mints -/

theorem mintWrites_done {n : IdentNvs} {id : Str} {io : MintIo}
    (done : (mintWrites publicHalf n id io).2 = true) :
    (mintWrites publicHalf n id io).1 =
      { deviceId := some id, pk := some (publicHalf io.secret), sk := some io.secret } := by
  simp only [mintWrites] at done ⊢
  split at done
  · simp at done
  · rename_i first
    split at done
    · simp at done
    · rename_i second
      split at done
      · simp at done
      · rename_i third
        rw [if_neg first, if_neg second, if_neg third]

/-- Over rows no load accepts, every prefix of the writes is a pair or is not accepted. -/
theorem mintWrites_paired {n : IdentNvs} (unusable : ¬ Loadable n) (id : Str) (io : MintIo) :
    Paired publicHalf (mintWrites publicHalf n id io).1 := by
  have afterPk (deviceId : Option Str) :
      Paired publicHalf
        { deviceId, pk := some (publicHalf io.secret), sk := some io.secret } := by
    intro _ sk stored
    rw [← Option.some.inj stored]
  simp only [mintWrites]
  split
  · exact fun usable => absurd usable unusable
  · split
    -- The id and the public key are still those no load accepts.
    · exact fun usable => absurd usable unusable
    · split
      · exact afterPk _
      · exact afterPk _

theorem generate_minted {io : MintIo} (minted : (u.generate publicHalf io).2 = true) :
    (u.generate publicHalf io).1.nvs.sk = some io.secret ∧
      (u.generate publicHalf io).1.pubHex = hexOf (publicHalf io.secret) := by
  simp only [generate] at minted ⊢
  split at minted
  · simp at minted
  · split at minted
    · simp at minted
    · split at minted
      · simp at minted
      · split at minted
        · split at minted
          · simp at minted
          · rename_i done _ hex encoded
            have fits := identityHexEncode_some encoded
            simp [*, mintWrites_done done]
        · simp at minted

/-- A mint changes the rows only by its writes, and not at all when none goes through. -/
theorem generate_keeps (publicHalf : Bytes → Bytes) (u : IdUnit) (io : MintIo) :
    (u.generate publicHalf io).1.nvs = u.nvs ∨
      io.writes u.mac = true ∧ ∃ id,
        (u.generate publicHalf io).1.nvs = (mintWrites publicHalf u.nvs id io).1 := by
  simp only [generate]
  split
  · exact .inl rfl
  · rename_i macReads
    split
    · exact .inl rfl
    · rename_i id named
      split
      · exact .inl rfl
      · rename_i prepared
        have rows : ∀ minted : IdUnit × Bool,
            minted.1.nvs = (mintWrites publicHalf u.nvs id io).1 →
            minted.1.nvs = u.nvs ∨ io.writes u.mac = true ∧ ∃ id,
              minted.1.nvs = (mintWrites publicHalf u.nvs id io).1 := by
          intro minted same
          by_cases stopped : io.powerAfter = some 0 ∨ (!io.setSk) = true
          · left
            rw [same, mintWrites, if_pos stopped]
          · refine .inr ⟨?_, id, same⟩
            simp only [not_or, Bool.not_eq_true', Bool.or_eq_true, Bool.not_eq_false] at *
            simp [MintIo.writes, *]
        apply rows
        split
        · split <;> rfl
        · rfl

theorem generate_ready (u : IdUnit) (io : MintIo) :
    (u.generate publicHalf io).1.ready = u.ready := by
  simp only [generate]
  repeat' split
  all_goals rfl

theorem generate_on (u : IdUnit) (io : MintIo) :
    (u.generate publicHalf io).1.on = u.on := by
  simp only [generate]
  repeat' split
  all_goals rfl

variable {canMint : Bool} {load : LoadIo} {mint : MintIo}

theorem begin_ready (ready : u.ready = true) :
    u.begin publicHalf canMint load mint = (u, true) := by
  simp [begin, ready]

theorem begin_loaded (ready : u.ready = false) (loaded : (u.loadExisting load).2 = true) :
    u.begin publicHalf canMint load mint =
      ({ (u.loadExisting load).1 with ready := true }, true) := by
  simp [begin, ready, loaded]

theorem begin_unmintable (ready : u.ready = false) (unread : (u.loadExisting load).2 = false) :
    u.begin publicHalf false load mint = ((u.loadExisting load).1, false) := by
  simp [begin, ready, unread]

theorem begin_mints (ready : u.ready = false) (unread : (u.loadExisting load).2 = false) :
    u.begin publicHalf true load mint =
      if mint.powerAfter.isSome then
        ({ ((u.loadExisting load).1.generate publicHalf mint).1 with on := false }, false)
      else if ((u.loadExisting load).1.generate publicHalf mint).2 then
        ({ ((u.loadExisting load).1.generate publicHalf mint).1 with ready := true }, true)
      else (((u.loadExisting load).1.generate publicHalf mint).1, false) := by
  simp [begin, ready, unread]

theorem signKey_eq_some {io : SignIo} {sk : Bytes} (signs : u.signKey io = some sk) :
    u.ready = true ∧ u.nvs.sk = some sk := by
  simp only [signKey] at signs
  split at signs
  · simp at signs
  · rename_i loads
    have read := (Option.filter_eq_some_iff.mp signs).1
    split at read
    · simp only [Bool.or_eq_true, Bool.not_eq_true', not_or, Bool.not_eq_false] at loads
      exact ⟨loads.1.1, read⟩
    · simp at read

end IdUnit

/-! ## The invariant -/

/-- The rows are a pair or no load accepts them, and what a ready unit shows is the public half
of the stored secret. -/
structure Consistent (publicHalf : Bytes → Bytes) (u : IdUnit) : Prop where
  rows : Paired publicHalf u.nvs
  shown : u.on = true → u.ready = true → ∀ sk, u.nvs.sk = some sk →
    u.pubHex = hexOf (publicHalf sk)

namespace Consistent

variable {publicHalf : Bytes → Bytes} {u : IdUnit}

/-- Rows that do not name a new secret, on a unit that is not ready, need only be a pair. -/
theorem of_idle (rows : Paired publicHalf u.nvs) (idle : u.on = true → u.ready = false) :
    Consistent publicHalf u := by
  refine ⟨rows, ?_⟩
  intro on ready
  simp [idle on] at ready

theorem restarted (c : Consistent publicHalf u) : Consistent publicHalf u.restarted :=
  .of_idle c.rows fun _ => rfl

/-- Rows dropped by an erase leave a pair, and nothing to contradict what is shown. -/
theorem erase (c : Consistent publicHalf u) (io : EraseIo) :
    Consistent publicHalf (u.erase io).1 := by
  have gone (deviceId pk) : Paired publicHalf ⟨deviceId, pk, none⟩ := by
    intro _ sk stored
    simp at stored
  simp only [IdUnit.erase]
  split
  · exact c
  · split
    · constructor
      · intro ⟨id, pk, named, valid, key, rest⟩ sk stored
        simp only [Option.ite_none_left_eq_some] at named key stored ⊢
        obtain ⟨-, named⟩ := named
        obtain ⟨kept, key⟩ := key
        exact ⟨kept, c.rows ⟨id, pk, named, valid, key, rest⟩ sk stored.2⟩
      · intro on ready sk stored
        simp only [Option.ite_none_left_eq_some] at stored
        exact c.shown on ready sk stored.2
    · split
      · exact .of_idle (gone _ _) fun _ => rfl
      · refine ⟨gone _ _, ?_⟩
        intro _ _ sk stored
        simp at stored

/-- A mint that finds nothing a load accepts, or writes nothing, leaves a pair, and leaves the
rows a load accepts alone. -/
theorem generate (c : Consistent publicHalf u) (mint : MintIo)
    (unread : Loadable u.nvs → mint.writes u.mac = false) :
    Paired publicHalf (u.generate publicHalf mint).1.nvs ∧
      (Loadable u.nvs → (u.generate publicHalf mint).1.nvs = u.nvs) := by
  obtain same | ⟨writes, id, rows⟩ := IdUnit.generate_keeps publicHalf u mint
  · rw [same]
    exact ⟨c.rows, fun _ => rfl⟩
  · have unusable : ¬ Loadable u.nvs := by
      intro usable
      simp [unread usable] at writes
    rw [rows]
    exact ⟨IdUnit.mintWrites_paired unusable id mint, fun usable => absurd usable unusable⟩

/-- An identity a load accepts is read, or the mint writes nothing. -/
theorem unwritten {canMint : Bool} {load : LoadIo} {mint : MintIo} (on : u.on = true)
    (ready : u.ready = false) (reads : ReadsStored u (.begin canMint load mint))
    (unread : (u.loadExisting load).2 = false) (mints : canMint = true) (usable : Loadable u.nvs) :
    mint.writes u.mac = false := by
  obtain ⟨opens, getId, getPk⟩ | idle := reads on ready usable
  · rw [IdUnit.loadExisting_of_loadable usable opens getId getPk] at unread
    simp at unread
  · simpa [mints] using idle

/-- A start whose load accepts the stored identity shows it. -/
theorem begin_loaded (c : Consistent publicHalf u) (on : u.on = true) {load : LoadIo}
    (loaded : (u.loadExisting load).2 = true) :
    Consistent publicHalf { (u.loadExisting load).1 with ready := true } ∧
      (u.loadExisting load).1.on = true ∧ (u.loadExisting load).1.nvs = u.nvs := by
  obtain ⟨id, hex, seen⟩ := IdUnit.loadExisting_keeps u load
  obtain ⟨usable, pk, key, published⟩ := IdUnit.loadExisting_loaded loaded
  have nvs : (u.loadExisting load).1.nvs = u.nvs := by rw [seen]
  refine ⟨⟨?_, ?_⟩, by rw [seen, on], nvs⟩
  · simpa only [nvs] using c.rows
  · intro _ _ sk stored
    simp only [nvs] at stored
    have paired := c.rows usable sk stored
    rw [key] at paired
    rw [published, Option.some.inj paired]

/-- A start that mints shows the secret it drew, and leaves alone what a load accepts. -/
theorem begin_mints (c : Consistent publicHalf u) (on : u.on = true) {load : LoadIo}
    {mint : MintIo} (reads : ReadsStored u (.begin true load mint)) (ready : u.ready = false)
    (loaded : (u.loadExisting load).2 = false) :
    Consistent publicHalf (u.begin publicHalf true load mint).1 ∧
      ((u.begin publicHalf true load mint).2 = true →
        (u.begin publicHalf true load mint).1.on = true) ∧
      (Loadable u.nvs → (u.begin publicHalf true load mint).1.nvs = u.nvs) := by
  obtain ⟨id, hex, seen⟩ := IdUnit.loadExisting_keeps u load
  have idle : Consistent publicHalf (u.loadExisting load).1 := by
    rw [seen]
    exact .of_idle c.rows fun _ => ready
  have unread : Loadable (u.loadExisting load).1.nvs →
      mint.writes (u.loadExisting load).1.mac = false := by
    have idle := unwritten on ready reads loaded rfl
    rw [seen]
    exact idle
  obtain ⟨rows, keeps⟩ := idle.generate mint unread
  have same : Loadable u.nvs →
      ((u.loadExisting load).1.generate publicHalf mint).1.nvs = u.nvs := by
    rw [seen] at keeps ⊢
    exact keeps
  have notReady : ((u.loadExisting load).1.generate publicHalf mint).1.ready = false := by
    rw [IdUnit.generate_ready, seen]
    exact ready
  have stays : ((u.loadExisting load).1.generate publicHalf mint).1.on = true := by
    rw [IdUnit.generate_on, seen]
    exact on
  rw [IdUnit.begin_mints ready loaded]
  split
  · exact ⟨.of_idle rows (by simp), by simp, same⟩
  · split
    · rename_i minted
      obtain ⟨drawn, published⟩ := IdUnit.generate_minted minted
      refine ⟨⟨rows, ?_⟩, fun _ => stays, same⟩
      intro _ _ sk stored
      rw [drawn] at stored
      rw [← Option.some.inj stored]
      exact published
    · exact ⟨.of_idle rows fun _ => notReady, by simp, same⟩

theorem begin (c : Consistent publicHalf u) (on : u.on = true) {canMint : Bool} {load : LoadIo}
    {mint : MintIo} (reads : ReadsStored u (.begin canMint load mint)) :
    Consistent publicHalf (u.begin publicHalf canMint load mint).1 ∧
      ((u.begin publicHalf canMint load mint).2 = true →
        (u.begin publicHalf canMint load mint).1.on = true) ∧
      (Loadable u.nvs → (u.begin publicHalf canMint load mint).1.nvs = u.nvs) := by
  cases ready : u.ready with
  | true =>
      rw [IdUnit.begin_ready ready]
      exact ⟨c, fun _ => on, fun _ => rfl⟩
  | false =>
      cases loaded : (u.loadExisting load).2 with
      | true =>
          obtain ⟨shown, stays, same⟩ := c.begin_loaded on loaded
          rw [IdUnit.begin_loaded ready loaded]
          exact ⟨shown, fun _ => stays, fun _ => same⟩
      | false =>
          cases mints : canMint with
          | false =>
              obtain ⟨id, hex, seen⟩ := IdUnit.loadExisting_keeps u load
              rw [IdUnit.begin_unmintable ready loaded, seen]
              exact ⟨.of_idle c.rows fun _ => ready, by simp, fun _ => rfl⟩
          | true =>
              subst mints
              exact c.begin_mints on reads ready loaded

/-- Every event that reads what is stored keeps the unit consistent and the stored pair. -/
theorem step (c : Consistent publicHalf u) (e : IdEvent) (reads : ReadsStored u e) :
    Consistent publicHalf (idStep publicHalf u e) ∧ Kept publicHalf u e := by
  cases e with
  | boot => exact ⟨c.restarted, by simp, fun _ _ => ⟨rfl, rfl⟩⟩
  | powerCut => exact ⟨.of_idle c.rows (by simp [idStep]), by simp, fun _ _ => ⟨rfl, rfl⟩⟩
  | erase io =>
      refine ⟨?_, by simp, fun _ others => absurd rfl (others io)⟩
      simp only [idStep]
      split
      · exact c.erase io
      · exact c
  | begin canMint load mint =>
      cases on : u.on with
      | false => simp [Kept, idStep, on, c]
      | true =>
          obtain ⟨kept, reported, same⟩ := c.begin on reads
          refine ⟨by simpa [idStep, on] using kept, ?_, ?_⟩
          · intro canMint' load' mint' isBegin _ reports io sk signs
            obtain ⟨rfl, rfl, rfl⟩ := IdEvent.begin.inj isBegin
            obtain ⟨ready, stored⟩ := IdUnit.signKey_eq_some signs
            exact kept.shown (reported reports) ready sk stored
          · intro complete _
            simp [idStep, on, same complete.1]

end Consistent

/-! ## Every sequence of boots -/

/-- A unit that was never provisioned. -/
def blank (mac : Bytes) : IdUnit :=
  { mac, nvs := ⟨none, none, none⟩, deviceId := [], pubHex := [], ready := false, on := false }

/-- Through any boots, erases and power cuts that read the identity they find, what is published
belongs to the secret `sign` uses and a complete identity keeps its pair. -/
theorem identity_kept (publicHalf : Bytes → Bytes) (mac : Bytes) (es : List IdEvent)
    (reads : Machine.Meets (idStep publicHalf) ReadsStored (blank mac) es) :
    Machine.Meets (idStep publicHalf) (Kept publicHalf) (blank mac) es := by
  have start : Consistent publicHalf (blank mac) := by
    refine .of_idle ?_ fun _ => rfl
    intro _ sk stored
    simp [blank] at stored
  have each : ∀ u e, Consistent publicHalf u → ReadsStored u e →
      Consistent publicHalf (idStep publicHalf u e) ∧ Kept publicHalf u e := by
    intro u e c read
    exact c.step e read
  exact reads.yields each start

/-- An Ed25519 secret key is its seed and then its public half. -/
def seedPublic (sk : Bytes) : Bytes := sk.drop 32

def sampleMac : Bytes := [2, 0, 0, 0, 0, 7]

def readsLand : LoadIo := ⟨true, true, true⟩

/-- A mint that draws the key made of `b`. -/
def mintOf (b : Nat) (powerAfter : Option Nat) : MintIo :=
  { macReads := true, sodiumInit := true, keygen := true, secret := List.replicate 64 b,
    opens := true, setSk := true, setPk := true, setId := true, commits := true, powerAfter }

/-- A first boot mints, and the next loads. -/
def firstBoots : List IdEvent :=
  [.boot, .begin true readsLand (mintOf 1 none), .boot, .begin true readsLand (mintOf 2 none)]

theorem identity_kept_sample :
    Machine.Meets (idStep seedPublic) (Kept seedPublic) (blank sampleMac) firstBoots :=
  identity_kept seedPublic sampleMac firstBoots
    ⟨trivial, fun _ _ _ => .inl ⟨rfl, rfl, rfl⟩, trivial, fun _ _ _ => .inl ⟨rfl, rfl, rfl⟩,
      trivial⟩

/-- A boot whose load cannot open NVS mints over the identity and loses power after the secret. -/
def openFailsThenCut : List IdEvent :=
  [.boot, .begin true readsLand (mintOf 1 none),
    .boot, .begin true ⟨false, true, true⟩ (mintOf 2 (some 1)),
    .boot, .begin true readsLand (mintOf 3 none)]

theorem open_failure_splits_pair :
    ¬ Machine.Meets (idStep seedPublic) (Kept seedPublic) (blank sampleMac) openFailsThenCut := by
  rintro ⟨-, -, -, -, -, ⟨published, -⟩, -⟩
  have shows := published true readsLand (mintOf 3 none) rfl (by decide)
    (by decide) ⟨true, true, true⟩ (List.replicate 64 2) (by decide)
  revert shows
  decide

end Thesada.Identity
