import Thesada.Library.CString

/-!
# URL split of the HTTP clients

`httpUrlSplit` of `http_url_policy.h`. The OTA and webhook clients refuse a URL it
refuses before anything is sent.
-/

namespace Thesada.Net

open CString

/-- What `httpUrlSplit` writes through its out parameters. -/
structure HttpTarget where
  host : Str
  path : Str
  port : Nat
  https : Bool
  deriving DecidableEq, Repr

/-- The text after the scheme, the scheme's port and whether it is `https`. -/
def httpScheme (url : Str) : Option (Str × Nat × Bool) :=
  if "https://".toList.isPrefixOf url then some (url.drop 8, 443, true)
  else if "http://".toList.isPrefixOf url then some (url.drop 7, 80, false)
  else none

/-- The port after the colon of a host, or `port` when the host has none. -/
def httpPort (host : Str) (port : Nat) : Option (Str × Nat) :=
  match host.idxOf? ':' with
  | none => some (host, port)
  | some colon =>
    let (v, rest) := strtol (host.drop (colon + 1))
    if rest.length = (host.drop (colon + 1)).length ∨ rest ≠ [] ∨ v < 1 ∨ v > 65535 then none
    else some (host.take colon, v.toNat)

/-- The port split only shortens the host. -/
theorem httpPort_length {host host' : Str} {port port' : Nat}
    (h : httpPort host port = some (host', port')) : host'.length ≤ host.length := by
  unfold httpPort at h
  split at h
  · simp only [Option.some.injEq, Prod.mk.injEq] at h
    exact h.1 ▸ Nat.le_refl _
  · dsimp only at h
    split at h
    · simp at h
    · simp only [Option.some.injEq, Prod.mk.injEq] at h
      rw [← h.1]
      exact List.length_take_le' _ _

/-- `httpUrlSplit`. A root query yields a path that starts with `?`. -/
def httpUrlSplit (url : Str) (hostCap : Nat) : Option HttpTarget :=
  if hostCap = 0 then none
  else
    match httpScheme url with
    | none => none
    | some (p, port, https) =>
      let query := p.idxOf? '?'
      -- A slash after the query belongs to the query.
      let slash := (p.idxOf? '/').filter fun s => query.all fun q => s < q
      let hostEnd := (slash.or query).getD p.length
      if hostEnd = 0 ∨ hostEnd ≥ hostCap then none
      else
        match httpPort (p.take hostEnd) port with
        | none => none
        | some (host, port) =>
          if host = [] then none
          else
            let path := if slash.isSome ∨ query.isSome then p.drop hostEnd else ['/']
            some { host, path, port, https }

/-- The host fits its buffer with the terminator and is not empty. -/
theorem httpUrlSplit_host {url : Str} {hostCap : Nat} {t : HttpTarget}
    (h : httpUrlSplit url hostCap = some t) : t.host ≠ [] ∧ t.host.length < hostCap := by
  unfold httpUrlSplit at h
  split at h
  · simp at h
  split at h
  · simp at h
  rename_i p port https _
  dsimp only at h
  split at h
  · simp at h
  rename_i fits
  split at h
  · simp at h
  rename_i host port' split
  split at h
  · simp at h
  rename_i nonempty
  obtain rfl := Option.some.inj h
  refine ⟨nonempty, ?_⟩
  have short := httpPort_length split
  rw [List.length_take] at short
  change host.length < hostCap
  omega

example : httpUrlSplit "https://h:8443/a?b".toList 128 =
    some { host := ['h'], path := "/a?b".toList, port := 8443, https := true } := by decide

end Thesada.Net
