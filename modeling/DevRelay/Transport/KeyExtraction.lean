import DevRelay.Transport.TlsLeaf

/-!
# Wrong keys

What `extract_single_ed25519_spki` returns for a leaf that this fabric has issued.  A name that
ends in the bytes in front of a key, or a little behind them, hides the real key: the field that
is read takes these bytes in, and the scan goes on behind it.
-/

namespace DevRelay.Transport

open DevRelay.Core DevRelay.Lib

/-- No key but this one is extracted. -/
def NeverWrong (der key : List UInt8) : Prop :=
  ∀ other, extractSingleEd25519Spki der = .ok other → other = key

/-- The field of 32 bytes behind a mark. -/
def fieldBehind (der : List UInt8) (start : Nat) : List UInt8 :=
  (der.drop (start + ed25519SpkiPrefix.length)).take 32

/-- The first mark of the certificate stands in front of the one at `place`, its field reaches
into that one, and behind the field there is none. -/
structure Hides (der : List UInt8) (place start : Nat) : Prop where
  occurs : OccursAt ed25519SpkiPrefix 32 der start
  first : ∀ i < start, ¬OccursAt ed25519SpkiPrefix 32 der i
  before : start < place
  reaches : place < start + (ed25519SpkiPrefix.length + 32)
  last : ∀ i, start + (ed25519SpkiPrefix.length + 32) ≤ i →
    ¬OccursAt ed25519SpkiPrefix 32 der i

section

variable {der key front behind : List UInt8} {start : Nat}

theorem split_of_occursAt (h : OccursAt ed25519SpkiPrefix 32 der start) :
    der = der.take start ++ (ed25519SpkiPrefix ++ fieldBehind der start) ++
      der.drop (start + (ed25519SpkiPrefix.length + 32)) := by
  obtain ⟨⟨rest, hrest⟩, hroom⟩ := h
  have hbehind : der.drop (start + ed25519SpkiPrefix.length) = rest := by
    rw [← List.drop_drop, ← hrest, List.drop_left]
  have hfield : fieldBehind der start = rest.take 32 := by
    rw [fieldBehind, hbehind]
  have hafter : der.drop (start + (ed25519SpkiPrefix.length + 32)) = rest.drop 32 := by
    rw [← Nat.add_assoc, ← List.drop_drop, hbehind]
  rw [hfield, hafter, List.append_assoc, List.append_assoc, List.take_append_drop, hrest,
    List.take_append_drop]

theorem length_fieldBehind (h : OccursAt ed25519SpkiPrefix 32 der start) :
    (fieldBehind der start).length = 32 := by
  have hroom := h.2
  rw [fieldBehind, List.length_take, List.length_drop]
  omega

theorem occursAt_real (hlength : key.length = 32) :
    OccursAt ed25519SpkiPrefix 32 (front ++ (ed25519SpkiPrefix ++ key) ++ behind)
      front.length := by
  constructor
  · rw [List.append_assoc, List.drop_left, List.append_assoc]
    exact List.prefix_append _ _
  · simp only [List.length_append, hlength]
    omega

theorem fieldBehind_real (hlength : key.length = 32) :
    fieldBehind (front ++ (ed25519SpkiPrefix ++ key) ++ behind) front.length = key := by
  rw [fieldBehind, ← List.drop_drop, List.append_assoc, List.drop_left, List.append_assoc,
    List.drop_left, List.take_left' hlength]

/-- A mark that hides the real one is read alone. -/
theorem Hides.soleKey {place : Nat} (h : Hides der place start) :
    SoleKey der (fieldBehind der start) := by
  have hstart : start ≤ der.length := by
    have hroom := h.occurs.2
    omega
  refine ⟨der.take start, der.drop (start + (ed25519SpkiPrefix.length + 32)),
    split_of_occursAt h.occurs, length_fieldBehind h.occurs, ?_, ?_⟩
  · rw [List.length_take, Nat.min_eq_left hstart]
    exact h.first
  · rw [List.length_take, Nat.min_eq_left hstart]
    exact h.last

/-- A wrong key is extracted exactly where a mark hides the real one. -/
theorem neverWrong_iff (hlength : key.length = 32) :
    NeverWrong (front ++ (ed25519SpkiPrefix ++ key) ++ behind) key ↔
      ∀ start, Hides (front ++ (ed25519SpkiPrefix ++ key) ++ behind) front.length start →
        fieldBehind (front ++ (ed25519SpkiPrefix ++ key) ++ behind) start = key := by
  constructor
  · intro hnever start hhides
    exact hnever _ (extractSingleEd25519Spki_eq_ok.mpr hhides.soleKey)
  · intro hhidden other hother
    rw [extractSingleEd25519Spki_eq_ok] at hother
    obtain ⟨before, after, hder, hfield, hfirst, hlast⟩ := hother
    have hreal : OccursAt ed25519SpkiPrefix 32 (front ++ (ed25519SpkiPrefix ++ key) ++ behind)
        front.length := occursAt_real hlength
    have hread : fieldBehind (front ++ (ed25519SpkiPrefix ++ key) ++ behind) before.length =
        other := by
      rw [hder]
      exact fieldBehind_real hfield
    have hsole : OccursAt ed25519SpkiPrefix 32
        (front ++ (ed25519SpkiPrefix ++ key) ++ behind) before.length := by
      rw [hder]
      exact occursAt_real hfield
    rcases Nat.lt_trichotomy before.length front.length with hlt | heq | hgt
    · rw [← hread]
      refine hhidden _ ⟨hsole, hfirst, hlt, ?_, hlast⟩
      by_contra hapart
      exact hlast _ (Nat.le_of_not_lt hapart) hreal
    · rw [← hread, heq]
      exact fieldBehind_real hlength
    · exact absurd hreal (hfirst _ hgt)

end

/-- What is extracted from a leaf of this fabric is its key or an error, exactly unless a mark in
front of the key hides it and the field there is not the same key. -/
theorem extraction_never_wrong_iff (issuer : LeafIssuer) (rootSecretKey : List UInt8)
    (fabricId deviceId : String) (key der : List UInt8) (hlength : key.length = 32)
    (hleaf : issuer.issueDeviceTlsLeafDer rootSecretKey fabricId deviceId key = .ok der) :
    ∃ front extensions,
      der = front ++ utf8 deviceId ++ (ed25519SpkiPrefix ++ key) ++ extensions ∧
      (NeverWrong der key ↔ ∀ start, Hides der (front ++ utf8 deviceId).length start →
        fieldBehind der start = key) := by
  obtain ⟨front, extensions, rfl⟩ := issuer.placed _ _ _ _ _ hleaf
  exact ⟨front, extensions, rfl, neverWrong_iff hlength⟩

/-! ## A name that ends in the mark

The certificates of `rcgen`, with fixed bytes where the real ones depend on a hash or a
signature.
-/

/-- The length of a DER value. -/
def derLength (n : Nat) : List UInt8 :=
  if n < 128 then [UInt8.ofNat n]
  else if n < 256 then [0x81, UInt8.ofNat n]
  else [0x82, UInt8.ofNat (n / 256), UInt8.ofNat n]

def derValue (tag : UInt8) (contents : List UInt8) : List UInt8 :=
  tag :: derLength contents.length ++ contents

/-- The header of a name with one common name, of this many bytes. -/
def commonNameHeader (n : Nat) : List UInt8 :=
  let value := 0x0c :: derLength n
  let named := [0x06, 0x03, 0x55, 0x04, 0x03] ++ value
  let pair := 0x30 :: derLength (named.length + n) ++ named
  let pairs := 0x31 :: derLength (pair.length + n) ++ pair
  0x30 :: derLength (pairs.length + n) ++ pairs

def ed25519Algorithm : List UInt8 := [0x30, 0x05, 0x06, 0x03, 0x2b, 0x65, 0x70]

/-- From 1975 to 4096. -/
def leafValidity : List UInt8 :=
  derValue 0x30 (derValue 0x17 (utf8 "750101000000Z") ++ derValue 0x18 (utf8 "40960101000000Z"))

/-- Key identifiers, the name of the server, and what the key is for. -/
def leafExtensions : List UInt8 :=
  derValue 0xa3 (derValue 0x30
    (derValue 0x30 ([0x06, 0x03, 0x55, 0x1d, 0x23, 0x04, 0x18, 0x30, 0x16, 0x80, 0x14] ++
        List.replicate 20 0x5a) ++
      derValue 0x30 ([0x06, 0x03, 0x55, 0x1d, 0x11, 0x04, 0x14, 0x30, 0x12, 0x82, 0x10] ++
        utf8 "devrelay-control") ++
      derValue 0x30 [0x06, 0x03, 0x55, 0x1d, 0x0f, 0x01, 0x01, 0xff, 0x04, 0x05, 0x03, 0x03, 0x07,
        0x80, 0x00] ++
      derValue 0x30 [0x06, 0x03, 0x55, 0x1d, 0x25, 0x04, 0x16, 0x30, 0x14, 0x06, 0x08, 0x2b, 0x06,
        0x01, 0x05, 0x05, 0x07, 0x03, 0x02, 0x06, 0x08, 0x2b, 0x06, 0x01, 0x05, 0x05, 0x07, 0x03,
        0x01] ++
      derValue 0x30 ([0x06, 0x03, 0x55, 0x1d, 0x0e, 0x04, 0x16, 0x04, 0x14] ++
        List.replicate 20 0x5a) ++
      derValue 0x30 [0x06, 0x03, 0x55, 0x1d, 0x13, 0x01, 0x01, 0xff, 0x04, 0x05, 0x30, 0x03, 0x01,
        0x01, 0x00]))

/-- What follows the key. -/
def leafEnd : List UInt8 :=
  leafExtensions ++ ed25519Algorithm ++ derValue 0x03 (0x00 :: List.replicate 64 0x5a)

/-- What the certificate holds in front of its subject. -/
def leafStart (fabricId : String) : List UInt8 :=
  [0xa0, 0x03, 0x02, 0x01, 0x02] ++ derValue 0x02 (List.replicate 16 0x5a) ++ ed25519Algorithm ++
    (commonNameHeader (utf8 ("DevRelay Fabric CA " ++ fabricId)).length ++
      utf8 ("DevRelay Fabric CA " ++ fabricId)) ++ leafValidity

/-- All in front of the bytes of the name. -/
def leafFront (fabricId deviceId : String) : List UInt8 :=
  let tbs := leafStart fabricId ++ commonNameHeader (utf8 deviceId).length
  let tbsLength := tbs.length + (utf8 deviceId).length + 44 + leafExtensions.length
  let tbsHeader := 0x30 :: derLength tbsLength
  let rest := tbsLength + ed25519Algorithm.length + 67
  0x30 :: derLength (tbsHeader.length + rest) ++ tbsHeader ++ tbs

def fixedIssuer : LeafIssuer where
  issueDeviceTlsLeafDer _ fabricId deviceId key :=
    .ok (leafFront fabricId deviceId ++ utf8 deviceId ++ (ed25519SpkiPrefix ++ key) ++ leafEnd)
  placed _ fabricId deviceId _ _ h := ⟨leafFront fabricId deviceId, leafEnd, (Except.ok.inj h).symm⟩

def demoKey : List UInt8 := List.replicate 32 7

def issuedTo (deviceId : String) : List UInt8 :=
  leafFront "fab" deviceId ++ utf8 deviceId ++ (ed25519SpkiPrefix ++ demoKey) ++ leafEnd

theorem extraction_of_laptop : ∃ front extensions,
    issuedTo "laptop" = front ++ utf8 "laptop" ++ (ed25519SpkiPrefix ++ demoKey) ++ extensions ∧
      (NeverWrong (issuedTo "laptop") demoKey ↔
        ∀ start, Hides (issuedTo "laptop") (front ++ utf8 "laptop").length start →
          fieldBehind (issuedTo "laptop") start = demoKey) :=
  extraction_never_wrong_iff fixedIssuer [] "fab" "laptop" demoKey (issuedTo "laptop")
    (by decide) rfl

/-- The bytes in front of a key, as a name. -/
def markName : String := "0*0\x05\x06\x03+ep\x03!\x00"

theorem markName_hides :
    Hides (issuedTo markName) (leafFront "fab" markName ++ utf8 markName).length
      (leafFront "fab" markName).length := by
  have hfirst : ∀ i < (leafFront "fab" markName).length,
      ¬OccursAt ed25519SpkiPrefix 32 (issuedTo markName) i := by decide +kernel
  have hlast : ¬ed25519SpkiPrefix <:+: (issuedTo markName).drop
      ((leafFront "fab" markName).length + (ed25519SpkiPrefix.length + 32)) := by decide +kernel
  exact ⟨by decide +kernel, hfirst, by decide +kernel, by decide +kernel,
    fun i hi => not_occursAt_of_notInfix hlast hi⟩

theorem markName_yields_a_wrong_key : ¬∀ (issuer : LeafIssuer) (rootSecretKey : List UInt8)
    (fabricId deviceId : String) (key der : List UInt8), deviceId ≠ "" → key.length = 32 →
    issuer.issueDeviceTlsLeafDer rootSecretKey fabricId deviceId key = .ok der →
      NeverWrong der key := by
  intro hall
  have hnever := hall fixedIssuer [] "fab" markName demoKey (issuedTo markName) (by decide)
    (by decide) rfl
  have hread := hnever _ (extractSingleEd25519Spki_eq_ok.mpr markName_hides.soleKey)
  have hwrong : fieldBehind (issuedTo markName) (leafFront "fab" markName).length ≠ demoKey := by
    decide +kernel
  exact hwrong hread

end DevRelay.Transport
