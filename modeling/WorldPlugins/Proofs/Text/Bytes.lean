import Mathlib.Data.String.Basic
import WorldPlugins.Text.Raw

/-! # Text as bytes

What is written as UTF-8 is read back as it was: a character is told from its first byte and the bytes that go on from
it, whatever comes after them.  Texts are in the order of their bytes.
-/

namespace WorldPlugins.Text

def continuing (payloads : List Nat) : List UInt8 := payloads.map fun k => UInt8.ofNat (k + 128)

private theorem toNat_ofNat {n : Nat} (h : n < 256) : (UInt8.ofNat n).toNat = n := by
  rw [UInt8.toNat_ofNat', Nat.mod_eq_of_lt h]

private theorem continuation?_ofNat {k : Nat} (h : k < 64) : continuation? (UInt8.ofNat (k + 128)) = some k := by
  have hbyte : (UInt8.ofNat (k + 128)).toNat = k + 128 := toNat_ofNat (by omega)
  rw [continuation?, hbyte, if_pos (by omega), Nat.add_sub_cancel]

private theorem mapM_continuing {payloads : List Nat} (h : ∀ k ∈ payloads, k < 64) :
    (continuing payloads).mapM continuation? = some payloads := by
  induction payloads with
  | nil => rfl
  | cons k payloads ih =>
    obtain ⟨hk, hpayloads⟩ := List.forall_mem_cons.mp h
    have hrest : (payloads.map fun k => UInt8.ofNat (k + 128)).mapM continuation? = some payloads := ih hpayloads
    rw [continuing, List.map_cons, List.mapM_cons, continuation?_ofNat hk, hrest]
    rfl

/-- The bytes that go on from a first one are told by their number from those that come after them. -/
private theorem mapM_take_continuing (payloads : List Nat) (h : ∀ k ∈ payloads, k < 64) (rest : List UInt8) :
    ((continuing payloads ++ rest).take payloads.length).mapM continuation? = some payloads := by
  rw [List.take_left' (by rw [continuing, List.length_map]), mapM_continuing h]

section

variable {n x y z : Nat} (rest : List UInt8)

private theorem leading?_one (hn : n < 128) : leading? (UInt8.ofNat n) rest = (scalar? 0 n).map (·, 0) := by
  unfold leading?
  rw [toNat_ofNat (by omega)]
  exact if_pos hn

private theorem leading?_two (hn : n < 32) (hx : x < 64) :
    leading? (UInt8.ofNat (n + 192)) (continuing [x] ++ rest) = (scalar? 0x80 (n * 64 + x)).map (·, 1) := by
  have hrest : ((continuing [x] ++ rest).take 1).mapM continuation? = some [x] :=
    mapM_take_continuing [x] (List.forall_mem_singleton.mpr hx) rest
  unfold leading?
  rw [toNat_ofNat (by omega)]
  dsimp only
  rw [if_neg (by omega), if_pos (by omega), hrest, Nat.add_sub_cancel]

private theorem leading?_three (hn : n < 16) (hx : x < 64) (hy : y < 64) :
    leading? (UInt8.ofNat (n + 224)) (continuing [x, y] ++ rest) =
      (scalar? 0x800 ((n * 64 + x) * 64 + y)).map (·, 2) := by
  have hrest : ((continuing [x, y] ++ rest).take 2).mapM continuation? = some [x, y] :=
    mapM_take_continuing [x, y] (by simp [hx, hy]) rest
  unfold leading?
  rw [toNat_ofNat (by omega)]
  dsimp only
  rw [if_neg (by omega), if_neg (by omega), if_pos (by omega), hrest, Nat.add_sub_cancel]

private theorem leading?_four (hn : n < 8) (hx : x < 64) (hy : y < 64) (hz : z < 64) :
    leading? (UInt8.ofNat (n + 240)) (continuing [x, y, z] ++ rest) =
      (scalar? 0x10000 (((n * 64 + x) * 64 + y) * 64 + z)).map (·, 3) := by
  have hrest : ((continuing [x, y, z] ++ rest).take 3).mapM continuation? = some [x, y, z] :=
    mapM_take_continuing [x, y, z] (by simp [hx, hy, hz]) rest
  unfold leading?
  rw [toNat_ofNat (by omega)]
  dsimp only
  rw [if_neg (by omega), if_neg (by omega), if_neg (by omega), if_pos (by omega), hrest, Nat.add_sub_cancel]

end

private theorem scalar?_val {least n : Nat} (c : Char) (hleast : least ≤ n) (hn : n = c.val.toNat) :
    scalar? least n = some c := by
  subst hn
  rw [scalar?, dif_pos ⟨hleast, c.valid⟩]
  rfl

private theorem val_lt (c : Char) : c.val.toNat < 1114112 := by
  rcases c.valid with h | ⟨-, h⟩
  · exact Nat.lt_trans h (by decide)
  · exact h

/-- A character is told from its first byte and those that go on from it, whatever comes after them. -/
theorem leading?_utf8 (c : Char) (rest : List UInt8) :
    ∃ b payloads, String.utf8EncodeChar c = b :: continuing payloads ∧
      leading? b (continuing payloads ++ rest) = some (c, payloads.length) := by
  have hlt := val_lt c
  have hlow (n : Nat) : n % 64 < 64 := Nat.mod_lt n (by decide)
  unfold String.utf8EncodeChar
  extract_lets v
  have hv : v = c.val.toNat := rfl
  rw [← hv] at hlt
  clear_value v
  -- The payloads are the digits of the code to base 64, of which the encoding takes as few as it can.
  split
  · refine ⟨_, [], rfl, ?_⟩
    rw [continuing, List.map_nil, List.nil_append, leading?_one rest (by omega), scalar?_val c (by omega) hv]
    rfl
  split
  · refine ⟨_, [v % 64], rfl, ?_⟩
    rw [leading?_two rest (by omega) (hlow _), scalar?_val c (by omega) (by omega)]
    rfl
  split
  · refine ⟨_, [v / 64 % 64, v % 64], rfl, ?_⟩
    rw [leading?_three rest (by omega) (hlow _) (hlow _), scalar?_val c (by omega) (by omega)]
    rfl
  · refine ⟨_, [v / 4096 % 64, v / 64 % 64, v % 64], rfl, ?_⟩
    rw [leading?_four rest (by omega) (hlow _) (hlow _) (hlow _), scalar?_val c (by omega) (by omega)]
    rfl

private theorem decodeFrom_append (front rest : List UInt8) :
    decodeFrom front.length (front ++ rest) = decodeFrom 0 rest := by
  induction front with
  | nil => rfl
  | cons b front ih => rw [List.length_cons, List.cons_append, decodeFrom, ih]

private theorem decode_flatMap (cs : List Char) : decode (cs.flatMap String.utf8EncodeChar) = Raw.ofChars cs := by
  induction cs with
  | nil => rfl
  | cons c cs ih =>
    obtain ⟨b, payloads, hbytes, hleading⟩ := leading?_utf8 c (cs.flatMap String.utf8EncodeChar)
    have hlength : payloads.length = (continuing payloads).length := by rw [continuing, List.length_map]
    rw [List.flatMap_cons, hbytes, List.cons_append, decode, decodeFrom, hleading]
    dsimp only
    rw [hlength, decodeFrom_append]
    exact congrArg (some c :: ·) ih

/-- The bytes of a text are those of its characters, one after another. -/
private theorem toUTF8_toList (s : String) : s.toUTF8.data.toList = s.toList.flatMap String.utf8EncodeChar := by
  have hbytes : s.toUTF8 = s.toList.utf8Encode := String.utf8Encode_toList.symm
  rw [hbytes, List.utf8Encode, List.toList_data_toByteArray]

/-- A text is read back from its bytes. -/
theorem decode_toUTF8 (s : String) : decode s.toUTF8.data.toList = Raw.ofString s := by
  rw [toUTF8_toList, decode_flatMap, Raw.ofString]

private theorem ofNat_cons_lt_iff {m n : Nat} (hm : m < 256) (hn : n < 256) (xs ys : List UInt8) :
    UInt8.ofNat m :: xs < UInt8.ofNat n :: ys ↔ m < n ∨ m = n ∧ xs < ys := by
  have heq : UInt8.ofNat m = UInt8.ofNat n ↔ m = n := by
    rw [← UInt8.toNat_inj, toNat_ofNat hm, toNat_ofNat hn]
  rw [List.cons_lt_cons_iff, UInt8.ofNat_lt_iff_lt hm hn, heq]

/-- Of two characters the lesser has the lesser bytes, whatever comes after them. -/
theorem utf8EncodeChar_append_lt {c d : Char} (h : c < d) (xs ys : List UInt8) :
    String.utf8EncodeChar c ++ xs < String.utf8EncodeChar d ++ ys := by
  have hlt : c.val.toNat < d.val.toNat := h
  have hc := val_lt c
  have hd := val_lt d
  unfold String.utf8EncodeChar
  extract_lets v w
  change v < w at hlt
  change v < 1114112 at hc
  change w < 1114112 at hd
  clear_value v w
  have hv : v / 262144 % 8 = v / 262144 := Nat.mod_eq_of_lt (by omega)
  have hw : w / 262144 % 8 = w / 262144 := Nat.mod_eq_of_lt (by omega)
  split_ifs <;> (
    simp (disch := omega) only [List.cons_append, List.nil_append, ofNat_cons_lt_iff]
    omega)

private theorem append_lt_append (front : List UInt8) {xs ys : List UInt8} (h : xs < ys) :
    front ++ xs < front ++ ys := by
  induction front with
  | nil => exact h
  | cons b front ih => exact List.cons_lt_cons_iff.mpr (.inr ⟨rfl, ih⟩)

private theorem flatMap_utf8_lt {cs ds : List Char} (h : cs < ds) :
    cs.flatMap String.utf8EncodeChar < ds.flatMap String.utf8EncodeChar := by
  induction cs generalizing ds with
  | nil =>
    cases ds with
    | nil => exact absurd h (List.lt_irrefl _)
    | cons d ds =>
      obtain ⟨b, payloads, hbytes, -⟩ := leading?_utf8 d []
      rw [List.flatMap_nil, List.flatMap_cons, hbytes]
      exact List.nil_lt_cons _ _
  | cons c cs ih =>
    cases ds with
    | nil => exact absurd h (List.not_lt_nil _)
    | cons d ds =>
      rw [List.flatMap_cons, List.flatMap_cons]
      rcases List.cons_lt_cons_iff.mp h with hlt | ⟨rfl, hrest⟩
      · exact utf8EncodeChar_append_lt hlt _ _
      · exact append_lt_append _ (ih hrest)

private theorem toUTF8_lt {s t : String} (h : s < t) : s.toUTF8.data.toList < t.toUTF8.data.toList := by
  rw [toUTF8_toList, toUTF8_toList]
  exact flatMap_utf8_lt (String.lt_iff_toList_lt.mp h)

/-- Texts are in the order of their bytes. -/
theorem toUTF8_lt_iff (s t : String) : s.toUTF8.data.toList < t.toUTF8.data.toList ↔ s < t := by
  refine ⟨fun h => ?_, toUTF8_lt⟩
  rcases lt_trichotomy s t with hlt | rfl | hgt
  · exact hlt
  · exact absurd h (List.lt_irrefl _)
  · exact absurd h (List.lt_asymm (toUTF8_lt hgt))

end WorldPlugins.Text
