import SymbolAtlas.Proofs.Disk.Paths

/-!
# Addresses of paths

The address of a path tells its bytes: what is written for a byte begins with a percent sign if and
only if the byte does not stand for itself, so the bytes of an address can be read back one by one.
The bytes tell the path, if it is written as directories list it; other paths may stand for the same
bytes.

* `Path.unpercent` — the bytes that an address is written for, with `Path.unpercent_encode`;
* `Path.ofUri?` — the bytes of the path that an address is of, with `Path.ofUri?_uri`;
* `Path.uri_eq_iff` — paths have the same address if they have the same bytes.
-/

namespace SymbolAtlas.Path

open Text

/-- The bytes that the characters of an address are written for. -/
def unpercent : List Char → Option (List UInt8)
  | [] => some []
  | '%' :: high :: low :: cs => do
    let high ← hexDigitValue? high
    let low ← hexDigitValue? low
    return UInt8.ofNat (16 * high + low) :: (← unpercent cs)
  | c :: cs => if c = '%' then none else (unpercent cs).map (UInt8.ofNat c.toNat :: ·)

theorem hexDigitValue?_upperHex : ∀ n < 16, hexDigitValue? (upperHex n) = some n := by
  decide

theorem toNat_ofNat_toNat (b : UInt8) : (Char.ofNat b.toNat).toNat = b.toNat := by
  have hlt := b.toNat_lt
  have hvalid : b.toNat.isValidChar := .inl (by omega)
  rw [Char.ofNat, dif_pos hvalid]
  rfl

/-- The percent sign does not stand for itself. -/
theorem ne_percent_of_isPlainByte {b : UInt8} (h : isPlainByte b = true) :
    Char.ofNat b.toNat ≠ '%' := by
  intro hpercent
  rw [isPlainByte, ← toNat_ofNat_toNat b, hpercent] at h
  exact absurd h (by decide)

theorem unpercent_cons_of_ne {c : Char} (hc : c ≠ '%') (cs : List Char) :
    unpercent (c :: cs) = (unpercent cs).map (UInt8.ofNat c.toNat :: ·) := by
  simp [unpercent, hc]

theorem unpercent_escape {high low : Nat} (hhigh : high < 16) (hlow : low < 16) (cs : List Char) :
    unpercent ('%' :: upperHex high :: upperHex low :: cs) =
      (unpercent cs).map (UInt8.ofNat (16 * high + low) :: ·) := by
  rw [unpercent, hexDigitValue?_upperHex high hhigh, hexDigitValue?_upperHex low hlow]
  cases unpercent cs <;> rfl

/-- What is written for a byte is read as the byte, whatever follows. -/
theorem unpercent_percent (b : UInt8) (cs : List Char) :
    unpercent (percent b ++ cs) = (unpercent cs).map (b :: ·) := by
  unfold percent
  split
  · next hplain =>
    rw [List.singleton_append, unpercent_cons_of_ne (ne_percent_of_isPlainByte hplain),
      toNat_ofNat_toNat, UInt8.ofNat_toNat]
  · have hlt := b.toNat_lt
    rw [List.cons_append, List.cons_append, List.singleton_append,
      unpercent_escape (by omega) (by omega), Nat.div_add_mod, UInt8.ofNat_toNat]

/-- All bytes are read back. -/
theorem unpercent_encode (bs : List UInt8) : unpercent (bs.flatMap percent) = some bs := by
  induction bs with
  | nil => rfl
  | cons b bs ih => rw [List.flatMap_cons, unpercent_percent, ih, Option.map_some]

/-- What addresses begin with. -/
def scheme : String := "file://"

/-- The bytes of the path that an address is of. -/
def ofUri? (uri : String) : Option (List UInt8) :=
  if scheme.toList.isPrefixOf uri.toList then unpercent (uri.toList.drop scheme.length) else none

theorem toList_uri (p : Path) :
    p.uri.toList = scheme.toList ++ p.bytes.flatMap percent := by
  rw [uri, String.toList_append]
  exact congrArg (scheme.toList ++ ·) String.toList_ofList

/-- **The address of a path tells its bytes.** -/
theorem ofUri?_uri (p : Path) : ofUri? p.uri = some p.bytes := by
  unfold ofUri?
  have hdrop : (scheme.toList ++ p.bytes.flatMap percent).drop scheme.length =
      p.bytes.flatMap percent := List.drop_left
  rw [toList_uri, if_pos (by simp), hdrop, unpercent_encode]

/-- Paths have the same address if and only if they have the same bytes. -/
theorem uri_eq_iff {p q : Path} : p.uri = q.uri ↔ p.bytes = q.bytes := by
  refine ⟨fun h => ?_, fun h => by rw [uri, h, uri]⟩
  have hread := ofUri?_uri p
  rw [h, ofUri?_uri] at hread
  exact (Option.some.inj hread).symm

end SymbolAtlas.Path
