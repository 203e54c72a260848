import GatedRelease.Text.Utf8

/-! Octet texts: texts with one character for every byte. Programs hand bytes to each other; as an
octet text they can be taken apart like any text, whatever they encode. `toBytes_ofBytes` says that
no byte is lost on the way. -/
namespace GatedRelease.Octets

/-- The octet text of bytes. -/
def ofBytes (bytes : Bytes) : String := String.ofList (bytes.map fun b => Char.ofNat b.toNat)

/-- The bytes of an octet text. -/
def toBytes (s : String) : Bytes := s.toList.map fun c => UInt8.ofNat c.toNat

/-- A text as an octet text. -/
def encode (s : String) : String := ofBytes (Text.utf8 s)

/-- The text that an octet text encodes. -/
def decode (s : String) : String := Text.ofUtf8Lossy (toBytes s)

theorem toNat_ofNat (b : UInt8) : (Char.ofNat b.toNat).toNat = b.toNat := by
  have h : b.toNat.isValidChar := Or.inl (Nat.lt_trans b.toNat_lt (by decide))
  rw [Char.ofNat, dif_pos h]
  rfl

@[simp] theorem toBytes_ofBytes (bytes : Bytes) : toBytes (ofBytes bytes) = bytes := by
  simp only [toBytes, ofBytes, String.toList_ofList, List.map_map]
  conv => rhs; rw [← List.map_id bytes]
  exact List.map_congr_left fun b _ => by
    simp only [Function.comp_apply, toNat_ofNat, UInt8.ofNat_toNat, id_eq]

end GatedRelease.Octets
