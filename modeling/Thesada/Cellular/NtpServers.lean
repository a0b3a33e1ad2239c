import Mathlib.Algebra.Group.Nat.Defs
import Mathlib.Data.List.Basic
import Mathlib.Data.List.Induction
import Thesada.Library.CString

/-!
# The time servers of a cellular link

`cellNtpHostUsable` refuses what a carrier cannot reach, and `cellNtpCandidates` takes the servers
of one attempt. An address is read by a scan that stops at the first byte that no address has
there, and a text that it stops in is a name.
-/

namespace Thesada.Cellular

open CString

def CELL_NTP_HOST_MAX : Nat := 111
def CELL_NTP_DEFAULT : Str := "pool.ntp.org".toList
def CELL_NTP_PER_TRY : Nat := 2

def cellNtpHostLen (host : Str) : Nat :=
  if 1 < host.length ∧ host.getLast? = some '.' then host.length - 1 else host.length

/-- The host without its trailing dot. -/
def hostText (host : Str) : Str := host.take (cellNtpHostLen host)

/-- The scan of an address, with the fields behind it, and the value and the number of digits of
the field it is in. -/
def quadScan : (fields : List Nat) → (field digits : Nat) → Str → Option (List Nat)
  | fields, field, digits, [] =>
      if fields.length = 3 ∧ 0 < digits then some (fields ++ [field]) else none
  | fields, field, digits, c :: rest =>
      if c.isDigit then
        let field := field * 10 + digitValue c
        if 3 < digits + 1 ∨ 255 < field then none else quadScan fields field (digits + 1) rest
      else if c = '.' ∧ 0 < digits ∧ fields.length < 3 then
        quadScan (fields ++ [field]) 0 0 rest
      else none

/-- The fields that an address is refused for. -/
def unreachable (o0 o1 : Nat) : Bool :=
  if o0 = 10 ∨ o0 = 127 ∨ o0 = 0 then true
  else if o0 = 172 ∧ 16 ≤ o1 ∧ o1 ≤ 31 then true
  else if o0 = 192 ∧ o1 = 168 then true
  else o0 = 169 ∧ o1 = 254

def LOCAL : Str := ".local".toList

def cellNtpHostUsable (host : Str) : Bool :=
  if host = [] then false
  else
    let text := hostText host
    if CELL_NTP_HOST_MAX < text.length then false
    else
      match quadScan [] 0 0 text with
      | some o => !unreachable (o.getD 0 0) (o.getD 1 0)
      | none =>
          if LOCAL.length ≤ text.length then
            !strcaseeq (text.drop (text.length - LOCAL.length)) LOCAL
          else true

def cellNtpSameHost (a b : Str) : Bool :=
  if cellNtpHostLen a ≠ cellNtpHostLen b then false else strcaseeq (hostText a) (hostText b)

/-- A turn of the loop over the sources. A null pointer is no server. -/
def cellNtpTake (out : List Str) (src : Option Str) : List Str :=
  match src with
  | none => out
  | some host =>
      if CELL_NTP_PER_TRY ≤ out.length then out
      else if !cellNtpHostUsable host then out
      else if out.any (cellNtpSameHost · host) then out
      else out ++ [host]

def cellNtpCandidates (server server2 : Option Str) : List Str :=
  [server, server2, some CELL_NTP_DEFAULT].foldl cellNtpTake []

/-! ## Addresses -/

/-- One to three digits with a value of at most 255. -/
structure Octet (t : Str) (v : Nat) : Prop where
  some_digit : t ≠ []
  short : t.length ≤ 3
  plain : ∀ c ∈ t, c.isDigit = true
  value : decimal t = v
  fits : v ≤ 255

/-- A dotted quad, and the address that it spells. -/
def DottedQuad (text : Str) (address : Nat) : Prop :=
  ∃ s0 s1 s2 s3 o0 o1 o2 o3, text = s0 ++ '.' :: (s1 ++ '.' :: (s2 ++ '.' :: s3)) ∧
    Octet s0 o0 ∧ Octet s1 o1 ∧ Octet s2 o2 ∧ Octet s3 o3 ∧
    address = ((o0 * 256 + o1) * 256 + o2) * 256 + o3

/-- The addresses that begin with the first `bits` bits of `o0.o1.0.0`. -/
def InNetwork (o0 o1 bits address : Nat) : Prop :=
  address / 2 ^ (32 - bits) = (o0 * 256 + o1) * 65536 / 2 ^ (32 - bits)

/-- Zero, private, loopback and link-local addresses. -/
def Unreachable (address : Nat) : Prop :=
  InNetwork 0 0 8 address ∨ InNetwork 10 0 8 address ∨ InNetwork 127 0 8 address ∨
    InNetwork 169 254 16 address ∨ InNetwork 172 16 12 address ∨ InNetwork 192 168 16 address

/-- A name under `.local`, in any case. -/
def LocalName (text : Str) : Prop := ∃ stem, text.map Char.toLower = stem ++ LOCAL

/-- Texts with dots between them. -/
def dotted : List Str → Str
  | [] => []
  | [t] => t
  | t :: ts => t ++ '.' :: dotted ts

section

variable {fields o : List Nat} {cur rest t : Str} {ts : List Str} {c : Char} {v : Nat}

/-- What a scan finds behind the digits `cur`: the other fields. -/
def Fields (fields : List Nat) (text : Str) (o : List Nat) : Prop :=
  ∃ ts : List Str, text = dotted ts ∧ ts.length + fields.length = 4 ∧
    (∀ t ∈ ts, Octet t (decimal t)) ∧ o = fields ++ ts.map decimal

/-- The first of the texts is the run of digits at the start. -/
theorem dotted_split (plain : ∀ c ∈ t, c.isDigit = true) :
    (dotted (t :: ts)).takeWhile Char.isDigit = t ∧
      (ts = [] ∧ (dotted (t :: ts)).dropWhile Char.isDigit = [] ∨
        ts ≠ [] ∧ (dotted (t :: ts)).dropWhile Char.isDigit = '.' :: dotted ts) := by
  cases ts with
  | nil =>
      exact ⟨List.takeWhile_eq_self_iff.mpr plain, .inl ⟨rfl, List.dropWhile_eq_nil_iff.mpr plain⟩⟩
  | cons u us =>
      obtain ⟨front, back⟩ := @split_dot t (dotted (u :: us)) plain
      exact ⟨front, .inr ⟨List.cons_ne_nil u us, back⟩⟩

/-- The digits read so far are the start of the first text. -/
theorem fields_first (plain : ∀ c ∈ cur, c.isDigit = true) (read : Fields fields (cur ++ rest) o)
    (more : fields.length < 4) :
    ∃ ts, Octet (cur ++ rest.takeWhile Char.isDigit)
        (decimal (cur ++ rest.takeWhile Char.isDigit)) ∧
      (ts = [] ∧ rest.dropWhile Char.isDigit = [] ∨
        ts ≠ [] ∧ rest.dropWhile Char.isDigit = '.' :: dotted ts) ∧
      ts.length + fields.length = 3 ∧ (∀ t ∈ ts, Octet t (decimal t)) ∧
      o = fields ++ decimal (cur ++ rest.takeWhile Char.isDigit) :: ts.map decimal := by
  obtain ⟨ts, same, length, octets, rfl⟩ := read
  cases ts with
  | nil =>
      simp only [List.length_nil] at length
      omega
  | cons t ts =>
      have first := octets t List.mem_cons_self
      obtain ⟨front, back⟩ := @dotted_split t ts first.plain
      rw [← same, List.takeWhile_append_of_pos plain] at front
      rw [← same, List.dropWhile_append_of_pos plain] at back
      rw [front]
      refine ⟨ts, first, back, ?_, fun u mem => octets u (List.mem_cons_of_mem t mem), rfl⟩
      simp only [List.length_cons] at length
      omega

theorem Octet.nil_fields (octet : Octet cur v) (last : fields.length = 3) :
    Fields fields cur (fields ++ [v]) := by
  obtain rfl := octet.value
  refine ⟨[cur], rfl, by simp [last], ?_, rfl⟩
  intro t mem
  rwa [List.mem_singleton.mp mem]

theorem decimal_le_append (digits more : Str) : decimal digits ≤ decimal (digits ++ more) := by
  induction more using List.reverseRecOn with
  | nil => rw [List.append_nil]
  | append_singleton more c ih =>
      rw [← List.append_assoc, decimal_concat]
      omega

/-- The scan goes on when the digits so far can start a field. -/
structure Started (cur : Str) : Prop where
  short : cur.length ≤ 3
  plain : ∀ c ∈ cur, c.isDigit = true
  fits : decimal cur ≤ 255

theorem Started.octet (started : Started cur) (some : cur ≠ []) : Octet cur (decimal cur) :=
  ⟨some, started.short, started.plain, rfl, started.fits⟩

theorem Started.digit (started : Started cur) (digit : c.isDigit = true)
    (short : (cur ++ [c]).length ≤ 3) (fits : decimal (cur ++ [c]) ≤ 255) :
    Started (cur ++ [c]) := by
  refine ⟨short, ?_, fits⟩
  intro d mem
  obtain before | same := List.mem_append.mp mem
  · exact started.plain d before
  · rwa [List.mem_singleton.mp same]

theorem Started.empty : Started [] :=
  ⟨Nat.zero_le 3, fun _ mem => absurd mem List.not_mem_nil, Nat.zero_le 255⟩

/-- At the end of the text the last field is there. -/
theorem fields_end (started : Started cur) (few : fields.length < 4) :
    (if fields.length = 3 ∧ 0 < cur.length then some (fields ++ [decimal cur]) else none) = some o ↔
      Fields fields cur o := by
  constructor
  · intro ended
    split at ended
    · next all =>
        obtain rfl := Option.some.inj ended
        exact (started.octet (List.ne_nil_of_length_pos all.2)).nil_fields all.1
    · cases ended
  · intro read
    rw [← List.append_nil cur] at read
    obtain ⟨ts, octet, back, length, -, rfl⟩ := fields_first started.plain read few
    obtain ⟨rfl, -⟩ | ⟨-, clash⟩ := back
    · rw [List.takeWhile_nil, List.append_nil] at octet ⊢
      rw [if_pos ⟨by simpa using length, List.length_pos_iff.mpr octet.some_digit⟩]
      rfl
    · cases clash

/-- A field of too many digits, or too large, is none however it goes on. -/
theorem fields_overrun (started : Started cur) (few : fields.length < 4) (digit : c.isDigit = true)
    (long : 3 < (cur ++ [c]).length ∨ 255 < decimal (cur ++ [c])) :
    ¬Fields fields (cur ++ c :: rest) o := by
  intro read
  obtain ⟨ts, octet, -⟩ := fields_first started.plain read few
  rw [List.takeWhile_cons_of_pos digit, List.append_cons cur c] at octet
  have short := octet.short
  have fits := octet.fits
  have below := decimal_le_append (cur ++ [c]) (rest.takeWhile Char.isDigit)
  rw [List.length_append] at short
  omega

/-- Behind a dot the next field starts. -/
theorem fields_dot (started : Started cur) (some : 0 < cur.length) (room : fields.length < 3) :
    Fields (fields ++ [decimal cur]) rest o ↔ Fields fields (cur ++ '.' :: rest) o := by
  have count : (fields ++ [decimal cur]).length = fields.length + 1 := by simp
  constructor
  · rintro ⟨ts, rfl, length, octets, rfl⟩
    cases ts with
    | nil =>
        simp only [List.length_nil] at length
        omega
    | cons t ts =>
        refine ⟨cur :: t :: ts, rfl, ?_, ?_, ?_⟩
        · rw [List.length_cons]
          omega
        · intro u mem
          obtain rfl | later := List.mem_cons.mp mem
          · exact started.octet (List.ne_nil_of_length_pos some)
          · exact octets u later
        · rw [List.append_assoc, List.map_cons]
          rfl
  · intro read
    obtain ⟨ts, -, back, length, octets, rfl⟩ := fields_first started.plain read (by omega)
    rw [List.takeWhile_cons_of_neg (by decide), List.append_nil]
    rw [List.dropWhile_cons_of_neg (by decide)] at back
    obtain ⟨-, clash⟩ | ⟨-, same⟩ := back
    · cases clash
    · refine ⟨ts, (List.cons.inj same).2, by omega, octets, ?_⟩
      rw [List.append_assoc]
      rfl

/-- Only a digit or a dot goes on. -/
theorem fields_stop (started : Started cur) (few : fields.length < 4) (digit : ¬c.isDigit = true)
    (dot : ¬(c = '.' ∧ 0 < cur.length ∧ fields.length < 3)) :
    ¬Fields fields (cur ++ c :: rest) o := by
  intro read
  obtain ⟨ts, octet, back, length, -⟩ := fields_first started.plain read few
  rw [List.takeWhile_cons_of_neg digit, List.append_nil] at octet
  rw [List.dropWhile_cons_of_neg digit] at back
  obtain ⟨-, clash⟩ | ⟨some, same⟩ := back
  · cases clash
  · have left := List.length_pos_iff.mpr some
    exact dot ⟨(List.cons.inj same).1, List.length_pos_iff.mpr octet.some_digit, by omega⟩

/-- The scan reads what is left of an address, and nothing else. -/
theorem quadScan_eq_some (started : Started cur) (few : fields.length < 4) :
    quadScan fields (decimal cur) cur.length rest = some o ↔ Fields fields (cur ++ rest) o := by
  induction rest generalizing fields cur with
  | nil =>
      rw [List.append_nil, quadScan]
      exact fields_end started few
  | cons c rest ih =>
      rw [quadScan]
      by_cases digit : c.isDigit = true
      · have next : decimal cur * 10 + digitValue c = decimal (cur ++ [c]) := by
          rw [decimal_concat, Nat.mul_comm]
        have length : cur.length + 1 = (cur ++ [c]).length := by simp
        rw [if_pos digit, next, length]
        dsimp only
        by_cases long : 3 < (cur ++ [c]).length ∨ 255 < decimal (cur ++ [c])
        · rw [if_pos long]
          exact iff_of_false (fun found => by cases found) (fields_overrun started few digit long)
        · rw [if_neg long, List.append_cons cur c rest]
          rw [not_or, Nat.not_lt, Nat.not_lt] at long
          exact ih (started.digit digit long.1 long.2) few
      · rw [if_neg digit]
        by_cases dot : c = '.' ∧ 0 < cur.length ∧ fields.length < 3
        · obtain ⟨rfl, some, room⟩ := dot
          have next : (fields ++ [decimal cur]).length < 4 := by
            rw [List.length_append, List.length_singleton]
            omega
          rw [if_pos ⟨rfl, some, room⟩]
          exact (ih .empty next).trans (fields_dot started some room)
        · rw [if_neg dot]
          exact iff_of_false (fun found => by cases found) (fields_stop started few digit dot)

theorem quadScan_fields (text : Str) : quadScan [] 0 0 text = some o ↔ Fields [] text o :=
  @quadScan_eq_some [] o [] text .empty (by decide)

/-! ## What is refused -/

theorem four_of_length {l : List Str} (length : l.length = 4) : ∃ s t u v, l = [s, t, u, v] := by
  match l, length with
  | [s, t, u, v], _ => exact ⟨s, t, u, v, rfl⟩

/-- Four fields are the fields of a dotted quad. -/
theorem quad_of_fields {text : Str} (read : Fields [] text o) :
    ∃ o0 o1 o2 o3, o = [o0, o1, o2, o3] ∧ o0 ≤ 255 ∧ o1 ≤ 255 ∧ o2 ≤ 255 ∧ o3 ≤ 255 ∧
      DottedQuad text (((o0 * 256 + o1) * 256 + o2) * 256 + o3) := by
  obtain ⟨ts, rfl, length, octets, rfl⟩ := read
  obtain ⟨s0, s1, s2, s3, rfl⟩ := four_of_length length
  have f0 := octets s0 (by simp)
  have f1 := octets s1 (by simp)
  have f2 := octets s2 (by simp)
  have f3 := octets s3 (by simp)
  exact ⟨_, _, _, _, rfl, f0.fits, f1.fits, f2.fits, f3.fits, s0, s1, s2, s3, _, _, _, _, rfl, f0,
    f1, f2, f3, rfl⟩

theorem fields_of_quad {text : Str} {address : Nat} (quad : DottedQuad text address) :
    ∃ o0 o1 o2 o3, Fields [] text [o0, o1, o2, o3] ∧
      address = ((o0 * 256 + o1) * 256 + o2) * 256 + o3 := by
  obtain ⟨s0, s1, s2, s3, o0, o1, o2, o3, rfl, f0, f1, f2, f3, rfl⟩ := quad
  obtain ⟨rfl, rfl, rfl, rfl⟩ := And.intro f0.value (And.intro f1.value (And.intro f2.value f3.value))
  refine ⟨_, _, _, _, ⟨[s0, s1, s2, s3], rfl, rfl, ?_, rfl⟩, rfl⟩
  simp [f0, f1, f2, f3]

theorem unreachable_iff {o0 o1 o2 o3 : Nat} (h0 : o0 ≤ 255) (h1 : o1 ≤ 255) (h2 : o2 ≤ 255)
    (h3 : o3 ≤ 255) :
    unreachable o0 o1 = true ↔ Unreachable (((o0 * 256 + o1) * 256 + o2) * 256 + o3) := by
  have same : unreachable o0 o1 = true ↔ (o0 = 10 ∨ o0 = 127 ∨ o0 = 0) ∨
      (o0 = 172 ∧ 16 ≤ o1 ∧ o1 ≤ 31) ∨ (o0 = 192 ∧ o1 = 168) ∨ (o0 = 169 ∧ o1 = 254) := by
    unfold unreachable
    split
    · next eight => simp [eight]
    · next eight =>
        rw [or_iff_right eight]
        split
        · next twelve => simp [twelve]
        · next twelve =>
            rw [or_iff_right twelve]
            split
            · next sixteen => simp [sixteen]
            · next sixteen => rw [or_iff_right sixteen, decide_eq_true_eq]
  rw [same]
  simp only [Unreachable, InNetwork]
  omega

theorem LocalName.last {text : Str} (isLocal : LocalName (text ++ [c])) : c.toLower = 'l' := by
  obtain ⟨stem, same⟩ := isLocal
  have last := congrArg List.getLast? same
  simpa [LOCAL] using last

/-- A digit is the last of an address, and not of a local name. -/
theorem not_local_of_quad {text : Str} {address : Nat} (quad : DottedQuad text address) :
    ¬LocalName text := by
  intro isLocal
  obtain ⟨s0, s1, s2, s3, o0, o1, o2, o3, rfl, -, -, -, f3, -⟩ := quad
  obtain ⟨front, d, rfl⟩ := (List.eq_nil_or_concat' s3).resolve_left f3.some_digit
  have digit := f3.plain d (by simp)
  have tail : s0 ++ '.' :: (s1 ++ '.' :: (s2 ++ '.' :: (front ++ [d]))) =
      (s0 ++ '.' :: (s1 ++ '.' :: (s2 ++ '.' :: front))) ++ [d] := by
    simp
  rw [tail] at isLocal
  have folded := isLocal.last
  rw [(digit_back digit).2.2] at folded
  subst folded
  exact absurd digit (by decide)

theorem local_iff (text : Str) :
    (LOCAL.length ≤ text.length ∧ strcaseeq (text.drop (text.length - LOCAL.length)) LOCAL = true) ↔
      LocalName text := by
  have fold : LOCAL.map Char.toLower = LOCAL := by decide
  rw [strcaseeq_iff, fold]
  constructor
  · rintro ⟨-, same⟩
    refine ⟨(text.take (text.length - LOCAL.length)).map Char.toLower, ?_⟩
    calc text.map Char.toLower
        = (text.take (text.length - LOCAL.length) ++
            text.drop (text.length - LOCAL.length)).map Char.toLower := by
          rw [List.take_append_drop]
      _ = _ ++ LOCAL := by rw [List.map_append, same]
  · rintro ⟨stem, same⟩
    have length := congrArg List.length same
    rw [List.length_map, List.length_append] at length
    refine ⟨by omega, ?_⟩
    rw [List.map_drop, same, List.drop_left' (by omega)]

theorem cellNtpHostUsable_iff (host : Str) :
    cellNtpHostUsable host = false ↔
      host = [] ∨ CELL_NTP_HOST_MAX < (hostText host).length ∨ LocalName (hostText host) ∨
        ∃ address, DottedQuad (hostText host) address ∧ Unreachable address := by
  unfold cellNtpHostUsable
  split
  · next none => simp [none]
  · next some =>
      rw [or_iff_right some]
      dsimp only
      split
      · next long => simp [long]
      · next short =>
          rw [or_iff_right short]
          split
          · next o scanned =>
              obtain ⟨o0, o1, o2, o3, rfl, h0, h1, h2, h3, quad⟩ :=
                quad_of_fields ((quadScan_fields _).mp scanned)
              rw [or_iff_right (not_local_of_quad quad), Bool.not_eq_false']
              refine (unreachable_iff h0 h1 h2 h3).trans ⟨fun far => ⟨_, quad, far⟩, ?_⟩
              rintro ⟨address, quad', far⟩
              obtain ⟨p0, p1, p2, p3, read, rfl⟩ := fields_of_quad quad'
              have same := (quadScan_fields _).mpr read
              rw [scanned] at same
              cases same
              exact far
          · next stopped =>
              have no_quad : ¬∃ address, DottedQuad (hostText host) address ∧
                  Unreachable address := by
                rintro ⟨address, quad, -⟩
                obtain ⟨p0, p1, p2, p3, read, -⟩ := fields_of_quad quad
                cases stopped.symm.trans ((quadScan_fields _).mpr read)
              rw [or_iff_left no_quad, ← local_iff]
              split
              · next long => rw [Bool.not_eq_false', and_iff_right long]
              · next short => exact iff_of_false (fun clash => by cases clash) fun found => short found.1

end

/-! ## What is tried -/

/-- The hosts name the same server: equal up to case and one trailing dot. -/
def SameServer (a b : Str) : Prop :=
  (hostText a).map Char.toLower = (hostText b).map Char.toLower

instance (a b : Str) : Decidable (SameServer a b) := inferInstanceAs (Decidable (_ = _))

/-- The configured servers that qualify. -/
def configured (server server2 : Str) : List Str :=
  if cellNtpHostUsable server then
    if cellNtpHostUsable server2 ∧ ¬SameServer server server2 then [server, server2] else [server]
  else if cellNtpHostUsable server2 then [server2] else []

theorem hostText_length (host : Str) : (hostText host).length = cellNtpHostLen host := by
  rw [hostText, List.length_take, cellNtpHostLen]
  split
  · omega
  · omega

theorem cellNtpSameHost_iff (a b : Str) : cellNtpSameHost a b = true ↔ SameServer a b := by
  rw [cellNtpSameHost, SameServer, ← strcaseeq_iff]
  split
  · next other =>
      refine iff_of_false Bool.false_ne_true fun same => other ?_
      have length := congrArg List.length (strcaseeq_iff.mp same)
      rwa [List.length_map, List.length_map, hostText_length, hostText_length] at length
  · exact Iff.rfl

theorem cellNtpTake_some (out : List Str) (host : Str) :
    cellNtpTake out (some host) =
      if out.length < CELL_NTP_PER_TRY ∧ cellNtpHostUsable host = true ∧
          ∀ h ∈ out, ¬SameServer h host then
        out ++ [host]
      else out := by
  have dup : out.any (cellNtpSameHost · host) = true ↔ ¬∀ h ∈ out, ¬SameServer h host := by
    simp [cellNtpSameHost_iff]
  rw [cellNtpTake]
  by_cases full : CELL_NTP_PER_TRY ≤ out.length
  · rw [if_pos full, if_neg fun room => absurd room.1 (Nat.not_lt.mpr full)]
  · rw [if_neg full]
    by_cases usable : cellNtpHostUsable host = true
    · simp only [usable, Bool.not_true, Bool.false_eq_true, if_false, dup, ite_not,
        Nat.not_le.mp full, true_and]
    · rw [if_pos (by simpa using usable), if_neg fun good => usable good.2.1]

theorem default_usable : cellNtpHostUsable CELL_NTP_DEFAULT = true := by decide

/-- The candidates are the configured servers that qualify, and the default where they are fewer
than two and it is none of them. -/
theorem cellNtpCandidates_eq (server server2 : Str) :
    cellNtpCandidates (some server) (some server2) =
      configured server server2 ++
        if (configured server server2).length < CELL_NTP_PER_TRY ∧
            ∀ h ∈ configured server server2, ¬SameServer h CELL_NTP_DEFAULT then
          [CELL_NTP_DEFAULT]
        else [] := by
  have first : cellNtpTake (cellNtpTake [] (some server)) (some server2) =
      configured server server2 := by
    rw [configured, cellNtpTake_some, cellNtpTake_some]
    by_cases usable : cellNtpHostUsable server = true
    · simp [usable, CELL_NTP_PER_TRY]
    · simp [usable, CELL_NTP_PER_TRY]
  rw [cellNtpCandidates, List.foldl_cons, List.foldl_cons, first, List.foldl_cons, List.foldl_nil]
  simp only [cellNtpTake_some, default_usable, true_and]
  split
  · rfl
  · exact (List.append_nil _).symm

theorem configured_length (server server2 : Str) :
    (configured server server2).length ≤ CELL_NTP_PER_TRY := by
  rw [configured]
  split
  · split
    · exact Nat.le_refl 2
    · exact Nat.le_succ 1
  · split
    · exact Nat.le_succ 1
    · exact Nat.zero_le 2

theorem cellNtpCandidates_length (server server2 : Str) :
    1 ≤ (cellNtpCandidates (some server) (some server2)).length ∧
      (cellNtpCandidates (some server) (some server2)).length ≤ CELL_NTP_PER_TRY := by
  have few := configured_length server server2
  rw [cellNtpCandidates_eq, List.length_append]
  split
  · next room =>
      rw [List.length_singleton]
      exact ⟨Nat.le_add_left 1 _, room.1⟩
  · next none =>
      rw [List.length_nil, Nat.add_zero]
      refine ⟨?_, few⟩
      by_contra empty
      have nil := List.length_eq_zero_iff.mp (Nat.lt_one_iff.mp (Nat.not_le.mp empty))
      rw [nil] at none
      exact none ⟨by decide, fun h mem => absurd mem List.not_mem_nil⟩

/-- Servers that qualify, each tried once. -/
structure Tried (out : List Str) : Prop where
  usable : ∀ h ∈ out, cellNtpHostUsable h = true
  distinct : out.Pairwise fun a b => ¬SameServer a b

theorem Tried.concat {out : List Str} {host : Str} (tried : Tried out)
    (usable : cellNtpHostUsable host = true) (fresh : ∀ h ∈ out, ¬SameServer h host) :
    Tried (out ++ [host]) := by
  constructor
  · intro h mem
    obtain before | same := List.mem_append.mp mem
    · exact tried.usable h before
    · rwa [List.mem_singleton.mp same]
  · rw [List.pairwise_append]
    refine ⟨tried.distinct, List.pairwise_singleton _ _, fun a mem b same => ?_⟩
    rw [List.mem_singleton.mp same]
    exact fresh a mem

theorem Tried.take {out : List Str} (tried : Tried out) (host : Str) :
    Tried (cellNtpTake out (some host)) := by
  rw [cellNtpTake_some]
  split
  · next good => exact tried.concat good.2.1 good.2.2
  · exact tried

/-- One or two usable servers that differ, the configured ones first, with the default only for
one that is missing; and what a host is refused for. -/
theorem cell_ntp_servers (server server2 : Str) :
    (let out := cellNtpCandidates (some server) (some server2)
     (1 ≤ out.length ∧ out.length ≤ CELL_NTP_PER_TRY) ∧ Tried out ∧
      out = configured server server2 ++
        if (configured server server2).length < CELL_NTP_PER_TRY ∧
            ∀ h ∈ configured server server2, ¬SameServer h CELL_NTP_DEFAULT then
          [CELL_NTP_DEFAULT]
        else []) ∧
    ∀ host, cellNtpHostUsable host = false ↔
      host = [] ∨ CELL_NTP_HOST_MAX < (hostText host).length ∨ LocalName (hostText host) ∨
        ∃ address, DottedQuad (hostText host) address ∧ Unreachable address := by
  have none : Tried [] := ⟨fun h mem => absurd mem List.not_mem_nil, .nil⟩
  have tried : Tried (cellNtpCandidates (some server) (some server2)) :=
    ((none.take server).take server2).take CELL_NTP_DEFAULT
  exact ⟨⟨cellNtpCandidates_length server server2, tried, cellNtpCandidates_eq server server2⟩,
    cellNtpHostUsable_iff⟩

end Thesada.Cellular
