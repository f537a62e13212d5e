import CardanoGraphql.CodeUnits

namespace CardanoGraphql.HexScalars

open CodeUnits

inductive Literal
  | string (value : CodeUnits)
  | other

/-- A scalar by its `validateInput`; what is thrown is a text, and `none` is `undefined`. -/
structure Scalar where
  validateInput : CodeUnits → Except CodeUnits CodeUnits
  serialize : CodeUnits → CodeUnits

namespace Scalar

variable (t : Scalar)

def parseValue (value : CodeUnits) : Except CodeUnits (Option CodeUnits) := (t.validateInput value).map some

def parseLiteral : Literal → Except CodeUnits (Option CodeUnits)
  | .string value => (t.validateInput value).map some
  | .other => .ok none

def Accepts (s : CodeUnits) : Prop := ∃ value, t.parseValue s = .ok value

end Scalar

def withPrefix (input : CodeUnits) : CodeUnits := ofString "\\x" ++ input

def validateHash (length : Nat) (what : String) (input : CodeUnits) : Except CodeUnits CodeUnits :=
  if input.length ≠ length then .error (input ++ ofString (" is not a valid " ++ what))
  else .ok (withPrefix input)

/-- `value.substring(2)` -/
def withoutPrefix (value : CodeUnits) : CodeUnits := value.drop 2

def Hash28Hex : Scalar :=
  { validateInput := validateHash 56 "28 byte hash"
    serialize := withoutPrefix }

def Hash32Hex : Scalar :=
  { validateInput := validateHash 64 "32 byte hash"
    serialize := withoutPrefix }

def Hex : Scalar :=
  { validateInput := fun input => .ok (withPrefix input)
    serialize := withoutPrefix }

def hasAssetPrefix (input : CodeUnits) : Bool := decide (input.take 5 = ofString "asset")

def AssetFingerprint : Scalar :=
  { validateInput := fun input =>
      if input.length ≠ 44 ∧ ¬ hasAssetPrefix input then
        .error (input ++ ofString " is not a valid AssetFingerprint")
      else .ok input
    serialize := fun value => value }

def hexValue (u : UInt16) : Option Nat :=
  if isDigit u then some (u.toNat - 48)
  else if 97 ≤ u.toNat ∧ u.toNat ≤ 102 then some (u.toNat - 87)
  else if 65 ≤ u.toNat ∧ u.toNat ≤ 70 then some (u.toNat - 55)
  else none

def decode : CodeUnits → Option (List UInt8)
  | [] => some []
  | [_] => none
  | u :: v :: rest => do
      let high ← hexValue u
      let low ← hexValue v
      let bytes ← decode rest
      return UInt8.ofNat (16 * high + low) :: bytes

def allHex (s : CodeUnits) : Prop := ∀ u ∈ s, (hexValue u).isSome = true

def EncodesBytes (count : Nat) (s : CodeUnits) : Prop := ∃ bytes, decode s = some bytes ∧ bytes.length = count

def IsHex (s : CodeUnits) : Prop := ∃ bytes, decode s = some bytes

/-- What is parsed is shown as it was given, and what is shown is parsed to what was stored. -/
structure RoundTrips (t : Scalar) (s : CodeUnits) : Prop where
  parsed : ∀ value, t.parseValue s = .ok (some value) → t.serialize value = s
  stored : t.Accepts s → t.parseValue (t.serialize (withPrefix s)) = .ok (some (withPrefix s))

theorem allHex_cons (u : UInt16) (s : CodeUnits) : allHex (u :: s) ↔ (hexValue u).isSome = true ∧ allHex s :=
  List.forall_mem_cons

theorem decode_spec (s : CodeUnits) :
    (∀ bytes, decode s = some bytes → s.length = 2 * bytes.length ∧ allHex s) ∧
      (s.length % 2 = 0 → allHex s → ∃ bytes, decode s = some bytes) := by
  induction s using decode.induct with
  | case1 =>
      refine ⟨fun bytes h => ?_, fun _ _ => ⟨[], rfl⟩⟩
      rw [← Option.some.inj h]
      refine ⟨rfl, fun u hu => ?_⟩
      cases hu
  | case2 u =>
      constructor
      · intro bytes h
        cases h
      · intro h
        cases h
  | case3 u v rest ih =>
      constructor
      · intro bytes h
        rw [decode] at h
        obtain ⟨high, hhigh, h⟩ := Option.bind_eq_some_iff.mp h
        obtain ⟨low, hlow, h⟩ := Option.bind_eq_some_iff.mp h
        obtain ⟨tail, htail, h⟩ := Option.bind_eq_some_iff.mp h
        obtain ⟨hlength, hrest⟩ := ih.1 tail htail
        rw [← Option.some.inj h, List.length_cons, List.length_cons, List.length_cons, hlength, allHex_cons,
          allHex_cons, hhigh, hlow]
        exact ⟨by omega, rfl, rfl, hrest⟩
      · intro hlength hall
        rw [allHex_cons, allHex_cons] at hall
        obtain ⟨hu, hv, hrest⟩ := hall
        obtain ⟨high, hhigh⟩ := Option.isSome_iff_exists.mp hu
        obtain ⟨low, hlow⟩ := Option.isSome_iff_exists.mp hv
        rw [List.length_cons, List.length_cons] at hlength
        obtain ⟨bytes, hbytes⟩ := ih.2 (by omega) hrest
        refine ⟨UInt8.ofNat (16 * high + low) :: bytes, ?_⟩
        rw [decode, hhigh, hlow, hbytes]
        rfl

theorem encodesBytes_iff (count : Nat) (s : CodeUnits) :
    EncodesBytes count s ↔ s.length = 2 * count ∧ allHex s := by
  constructor
  · rintro ⟨bytes, hbytes, rfl⟩
    exact (decode_spec s).1 bytes hbytes
  · rintro ⟨hlength, hall⟩
    obtain ⟨bytes, hbytes⟩ := (decode_spec s).2 (by omega) hall
    have := ((decode_spec s).1 bytes hbytes).1
    exact ⟨bytes, hbytes, by omega⟩

theorem accepts_iff (t : Scalar) (s : CodeUnits) : t.Accepts s ↔ ∃ value, t.validateInput s = .ok value := by
  rw [Scalar.Accepts, Scalar.parseValue]
  cases t.validateInput s with
  | error message => exact iff_of_false (fun ⟨_, h⟩ => by cases h) fun ⟨_, h⟩ => by cases h
  | ok value => exact iff_of_true ⟨some value, rfl⟩ ⟨value, rfl⟩

theorem validateHash_accepts (length : Nat) (what : String) (s : CodeUnits) :
    (∃ value, validateHash length what s = .ok value) ↔ s.length = length := by
  rw [validateHash]
  by_cases h : s.length = length
  · rw [if_neg (not_not.mpr h)]
    exact iff_of_true ⟨_, rfl⟩ h
  · rw [if_pos h]
    exact iff_of_false (fun ⟨_, hv⟩ => by cases hv) h

theorem hash_exact_iff {count : Nat} (s : CodeUnits) :
    (s.length = 2 * count ↔ EncodesBytes count s) ↔ (s.length = 2 * count → allHex s) := by
  rw [encodesBytes_iff]
  constructor
  · intro h hlength
    exact (h.mp hlength).2
  · intro h
    exact ⟨fun hlength => ⟨hlength, h hlength⟩, And.left⟩

theorem fingerprint_accepts (s : CodeUnits) :
    AssetFingerprint.Accepts s ↔ s.length = 44 ∨ hasAssetPrefix s = true := by
  rw [accepts_iff, AssetFingerprint]
  dsimp only
  by_cases h : s.length = 44 ∨ hasAssetPrefix s = true
  · rw [if_neg (by simpa [Classical.or_iff_not_imp_left] using h)]
    exact iff_of_true ⟨_, rfl⟩ h
  · rw [if_pos (by simpa using h)]
    exact iff_of_false (fun ⟨_, hv⟩ => by cases hv) h

theorem roundTrips_of_prefix {t : Scalar} (hserialize : t.serialize = withoutPrefix)
    (h : ∀ s value, t.validateInput s = .ok value → value = withPrefix s) (s : CodeUnits) : RoundTrips t s := by
  have hdrop : withoutPrefix (withPrefix s) = s := rfl
  constructor
  · intro value hvalue
    rw [Scalar.parseValue] at hvalue
    cases hinput : t.validateInput s with
    | error message =>
        rw [hinput] at hvalue
        cases hvalue
    | ok accepted =>
        rw [hinput] at hvalue
        rw [← Option.some.inj (Except.ok.inj hvalue), h s accepted hinput, hserialize, hdrop]
  · intro haccepts
    obtain ⟨accepted, hinput⟩ := (accepts_iff t s).mp haccepts
    rw [hserialize, hdrop, Scalar.parseValue, hinput, h s accepted hinput]
    rfl

theorem validateHash_ok (length : Nat) (what : String) (s value : CodeUnits)
    (h : validateHash length what s = .ok value) : value = withPrefix s := by
  rw [validateHash] at h
  split at h
  · cases h
  · exact (Except.ok.inj h).symm

/-- Lengths are all that is checked of a hash, nothing of `Hex`, and one of the two
conditions of a fingerprint; the codecs are inverse, and both parsers agree. -/
theorem scalars_exact_iff (s : CodeUnits) :
    ((Hash28Hex.Accepts s ↔ EncodesBytes 28 s) ↔ (s.length = 56 → allHex s)) ∧
      ((Hash32Hex.Accepts s ↔ EncodesBytes 32 s) ↔ (s.length = 64 → allHex s)) ∧
      ((Hex.Accepts s ↔ IsHex s) ↔ s.length % 2 = 0 ∧ allHex s) ∧
      ((AssetFingerprint.Accepts s ↔ hasAssetPrefix s = true ∧ s.length = 44) ↔
        (hasAssetPrefix s = true ↔ s.length = 44)) ∧
      (∀ t ∈ [Hash28Hex, Hash32Hex, Hex, AssetFingerprint], t.parseValue s = t.parseLiteral (.string s)) ∧
      ∀ t ∈ [Hash28Hex, Hash32Hex, Hex], RoundTrips t s := by
  refine ⟨?_, ?_, ?_, ?_, ?_, ?_⟩
  · rw [accepts_iff Hash28Hex, Hash28Hex, validateHash_accepts]
    exact @hash_exact_iff 28 s
  · rw [accepts_iff Hash32Hex, Hash32Hex, validateHash_accepts]
    exact @hash_exact_iff 32 s
  · have haccepts : Hex.Accepts s := ⟨_, rfl⟩
    rw [iff_true_left haccepts]
    constructor
    · rintro ⟨bytes, hbytes⟩
      obtain ⟨hlength, hall⟩ := (decode_spec s).1 bytes hbytes
      exact ⟨by omega, hall⟩
    · rintro ⟨hlength, hall⟩
      exact (decode_spec s).2 hlength hall
  · rw [fingerprint_accepts]
    tauto
  · intro t _
    rfl
  · intro t ht
    rcases List.mem_cons.mp ht with rfl | ht
    · exact roundTrips_of_prefix rfl (validateHash_ok 56 "28 byte hash") s
    · rcases List.mem_cons.mp ht with rfl | ht
      · exact roundTrips_of_prefix rfl (validateHash_ok 64 "32 byte hash") s
      · rw [List.mem_singleton.mp ht]
        exact roundTrips_of_prefix rfl (fun s value h => (Except.ok.inj h).symm) s

def noHash : CodeUnits := List.replicate 56 (unit 'z')

theorem noHash_accepted : Hash28Hex.Accepts noHash ∧ ¬ EncodesBytes 28 noHash ∧ Hex.Accepts noHash ∧
    ¬ IsHex noHash ∧ AssetFingerprint.Accepts (ofString "asset1") := by
  refine ⟨⟨_, rfl⟩, ?_, ⟨_, rfl⟩, ?_, ⟨_, rfl⟩⟩
  · rintro ⟨bytes, hbytes, -⟩
    cases hbytes
  · rintro ⟨bytes, hbytes⟩
    cases hbytes

end CardanoGraphql.HexScalars
