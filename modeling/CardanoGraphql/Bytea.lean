import Mathlib.Data.List.Basic

namespace CardanoGraphql.Bytea

abbrev Bytes := List UInt8

def hexPair (b : UInt8) : List Char := [Nat.digitChar (b.toNat / 16), Nat.digitChar (b.toNat % 16)]

def hexChars (bytes : Bytes) : List Char := bytes.flatMap hexPair

def hexText (bytes : Bytes) : String := String.ofList (hexChars bytes)

/-- The text output of a `bytea` value. -/
def byteaOut (bytes : Bytes) : String := "\\x" ++ hexText bytes

def digitValue (c : Char) : Option Nat :=
  (List.range 16).find? fun d => decide (Nat.digitChar d = c)

def readHex : List Char → Option Bytes
  | [] => some []
  | [_] => none
  | c :: d :: rest => do
      let high ← digitValue c
      let low ← digitValue d
      let bytes ← readHex rest
      return UInt8.ofNat (16 * high + low) :: bytes

def byteaIn (text : String) : Option Bytes :=
  match text.toList with
  | '\\' :: 'x' :: digits => readHex digits
  | _ => none

theorem digitValue_digitChar {d : Nat} (h : d < 16) : digitValue (Nat.digitChar d) = some d := by
  have hall : ∀ e : Fin 16, digitValue (Nat.digitChar e) = some e.val := by decide
  exact hall ⟨d, h⟩

theorem hexChars_cons (b : UInt8) (bytes : Bytes) :
    hexChars (b :: bytes) =
      Nat.digitChar (b.toNat / 16) :: Nat.digitChar (b.toNat % 16) :: hexChars bytes := rfl

theorem hexChars_append (as bs : Bytes) : hexChars (as ++ bs) = hexChars as ++ hexChars bs :=
  List.flatMap_append

theorem readHex_hexChars (bytes : Bytes) : readHex (hexChars bytes) = some bytes := by
  induction bytes with
  | nil => rfl
  | cons b bytes ih =>
      have hb := b.toNat_lt
      have hhigh : digitValue (Nat.digitChar (b.toNat / 16)) = some (b.toNat / 16) :=
        digitValue_digitChar (by omega)
      have hlow : digitValue (Nat.digitChar (b.toNat % 16)) = some (b.toNat % 16) :=
        digitValue_digitChar (by omega)
      have hhalves : UInt8.ofNat (16 * (b.toNat / 16) + b.toNat % 16) = b := by
        rw [show 16 * (b.toNat / 16) + b.toNat % 16 = b.toNat by omega, UInt8.ofNat_toNat]
      simp only [hexChars_cons, readHex, hhigh, hlow, ih, Option.bind_eq_bind, Option.bind_some,
        Option.pure_def, hhalves]

theorem hexText_append (as bs : Bytes) : hexText (as ++ bs) = hexText as ++ hexText bs := by
  rw [hexText, hexChars_append, String.ofList_append]
  rfl

theorem hexText_nil : hexText [] = "" := rfl

theorem byteaIn_digits (digits : String) : byteaIn ("\\x" ++ digits) = readHex digits.toList := by
  simp [byteaIn]

theorem byteaIn_hexText (bytes : Bytes) : byteaIn ("\\x" ++ hexText bytes) = some bytes := by
  rw [byteaIn_digits, hexText, String.toList_ofList, readHex_hexChars]

theorem byteaIn_byteaOut (bytes : Bytes) : byteaIn (byteaOut bytes) = some bytes :=
  byteaIn_hexText bytes

theorem append_injective {as as' bs bs' : Bytes} (hlen : as.length = as'.length)
    (h : byteaIn (byteaOut (as ++ bs)) = byteaIn (byteaOut (as' ++ bs'))) : as = as' ∧ bs = bs' := by
  rw [byteaIn_byteaOut, byteaIn_byteaOut] at h
  exact List.append_inj (Option.some.inj h) hlen

end CardanoGraphql.Bytea
