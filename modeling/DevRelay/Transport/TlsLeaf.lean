import DevRelay.Core.Error
import DevRelay.Lib.MarkedField
import DevRelay.Lib.TextBytes

/-!
# Leaf certificates of the control plane

`extract_single_ed25519_spki` and the leaf of `tls_identity.rs`.  The key of a leaf is found by
the bytes in front of it, wherever they stand; the name of the device stands right before the
key, and nothing keeps these bytes out of a name.
-/

namespace DevRelay.Transport

open DevRelay.Core DevRelay.Lib

def ed25519SpkiPrefix : List UInt8 :=
  [0x30, 0x2a, 0x30, 0x05, 0x06, 0x03, 0x2b, 0x65, 0x70, 0x03, 0x21, 0x00]

theorem unbordered_spkiPrefix : Unbordered ed25519SpkiPrefix := by decide

/-! ## Extraction -/

/-- The loop, from its offset on. -/
def scanSpki (found : Option (List UInt8)) (rest : List UInt8) :
    Except DevRelayError (Option (List UInt8)) :=
  if ed25519SpkiPrefix.length + 32 ≤ rest.length then
    if ed25519SpkiPrefix.isPrefixOf rest then
      let key := (rest.drop ed25519SpkiPrefix.length).take 32
      if found.isSome then
        .error (.config "certificate contains more than one ed25519 public key")
      else scanSpki (some key) (rest.drop (ed25519SpkiPrefix.length + 32))
    else scanSpki found (rest.drop 1)
  else .ok found
termination_by rest.length
decreasing_by
  · rw [List.length_drop]
    omega
  · rw [List.length_drop]
    omega

def extractSingleEd25519Spki (certificateDer : List UInt8) : Except DevRelayError (List UInt8) := do
  let found ← scanSpki none certificateDer
  match found with
  | some key => .ok key
  | none => .error (.config "certificate does not contain an ed25519 public key")

/-- The certificate holds this key, and no other in its place. -/
def SoleKey (certificateDer key : List UInt8) : Prop :=
  SoleField ed25519SpkiPrefix 32 certificateDer key

theorem occursAt_zero_iff {rest : List UInt8} :
    OccursAt ed25519SpkiPrefix 32 rest 0 ↔
      ed25519SpkiPrefix.isPrefixOf rest = true ∧ ed25519SpkiPrefix.length + 32 ≤ rest.length := by
  rw [OccursAt, List.drop_zero, Nat.zero_add, List.isPrefixOf_iff_prefix]

/-- Where the rest is too short nothing is read. -/
theorem markedFields_of_short {rest : List UInt8}
    (h : ¬ed25519SpkiPrefix.length + 32 ≤ rest.length) :
    markedFields ed25519SpkiPrefix 32 rest = [] := by
  rw [markedFields_eq_nil_iff (by decide)]
  rintro i ⟨-, hroom⟩
  omega

/-- The keys that the loop has found, and finds from here on. -/
theorem scanSpki_eq (found : Option (List UInt8)) (rest : List UInt8) :
    scanSpki found rest = match found.toList ++ markedFields ed25519SpkiPrefix 32 rest with
      | [] => .ok none
      | [key] => .ok (some key)
      | _ => .error (.config "certificate contains more than one ed25519 public key") := by
  induction hn : rest.length using Nat.strong_induction_on generalizing found rest with
  | _ n ih =>
    rw [scanSpki]
    by_cases hroom : ed25519SpkiPrefix.length + 32 ≤ rest.length
    · rw [if_pos hroom]
      by_cases hmarker : ed25519SpkiPrefix.isPrefixOf rest = true
      · rw [if_pos hmarker, markedFields_of_occursAt (by decide)
          (occursAt_zero_iff.mpr ⟨hmarker, hroom⟩)]
        cases found with
        | some key => rfl
        | none =>
          have hshort : (rest.drop (ed25519SpkiPrefix.length + 32)).length < n := by
            rw [List.length_drop]
            omega
          exact ih _ hshort _ _ rfl
      · rw [if_neg hmarker]
        cases rest with
        | nil => exact absurd hroom (by decide)
        | cons c rest =>
          rw [List.length_cons] at hn
          rw [List.drop_one, List.tail_cons, ih rest.length (by omega) found rest rfl,
            markedFields_of_not_occursAt fun h => hmarker (occursAt_zero_iff.mp h).1]
    · rw [if_neg hroom, markedFields_of_short hroom]
      cases found with
      | some key => rfl
      | none => rfl

/-- The key that is extracted is the sole one. -/
theorem extractSingleEd25519Spki_eq_ok {certificateDer key : List UInt8} :
    extractSingleEd25519Spki certificateDer = .ok key ↔ SoleKey certificateDer key := by
  rw [SoleKey, ← markedFields_eq_singleton_iff (by decide), extractSingleEd25519Spki,
    scanSpki_eq, Option.toList_none, List.nil_append]
  rcases markedFields ed25519SpkiPrefix 32 certificateDer with _ | ⟨first, _ | ⟨second, others⟩⟩
  · exact iff_of_false (by rintro ⟨⟩) (by rintro ⟨⟩)
  · constructor
    · intro h
      cases h
      rfl
    · intro h
      cases h
      rfl
  · exact iff_of_false (by rintro ⟨⟩) (by rintro ⟨⟩)

theorem SoleKey.length {certificateDer key : List UInt8} (h : SoleKey certificateDer key) :
    key.length = 32 := by
  obtain ⟨_, _, -, hlength, -, -⟩ := h
  exact hlength

theorem SoleKey.unique {certificateDer key other : List UInt8} (h : SoleKey certificateDer key)
    (h' : SoleKey certificateDer other) : key = other := by
  rw [← extractSingleEd25519Spki_eq_ok] at h h'
  exact Except.ok.inj (h.symm.trans h')

/-! ## Issuing -/

/-- `issue_device_tls_leaf_der`: the certificates that `rcgen` makes under the key of the fabric.
The name of the subject is in front of its key, as X.509 prescribes. -/
structure LeafIssuer where
  issueDeviceTlsLeafDer : (rootSecretKey : List UInt8) → (fabricId deviceId : String) →
    (deviceSigningPublicKey : List UInt8) → Except DevRelayError (List UInt8)
  placed : ∀ rootSecretKey fabricId deviceId key der,
    issueDeviceTlsLeafDer rootSecretKey fabricId deviceId key = .ok der →
      ∃ front extensions,
        der = front ++ utf8 deviceId ++ (ed25519SpkiPrefix ++ key) ++ extensions

section

variable {issuer : LeafIssuer} {rootSecretKey key der : List UInt8} {fabricId deviceId : String}

/-- Where the bytes in front of a key are not in the name, nor in what `rcgen` puts around, the
key of a leaf is the sole one. -/
theorem soleKey_of_plain {front extensions : List UInt8} (hlength : key.length = 32)
    (hder : der = front ++ utf8 deviceId ++ (ed25519SpkiPrefix ++ key) ++ extensions)
    (hname : ¬ed25519SpkiPrefix <:+: front ++ utf8 deviceId)
    (hextensions : ¬ed25519SpkiPrefix <:+: extensions) : SoleKey der key := by
  rw [hder]
  exact soleField_of_notInfix unbordered_spkiPrefix hlength hname hextensions

end

end DevRelay.Transport
