import Triage.Build
import Triage.Proofs.Text.Hex

/-!
# Commit hashes as text

A hash is written as two digits a byte in lower case, and reading gives it back (`ofHex?_toHex`).  The texts
that are read are those of an even number of bytes with nothing but digits of either case
(`exists_ofHex?_iff`), and each is read as the hash that is written as the text in lower case.  So texts
stand for the same hash if they differ in case only, and any other text is refused with what is
wrong with it (`ofHex?_inverts_toHex`).
-/

namespace Triage.CommitHash

/-- An even number of bytes, with nothing but hexadecimal digits of either case. -/
def IsHexText (s : String) : Prop :=
  s.utf8ByteSize % 2 = 0 ∧ s.toList.all Char.isHexDigit = true

instance : DecidablePred IsHexText := fun s =>
  inferInstanceAs (Decidable (s.utf8ByteSize % 2 = 0 ∧ s.toList.all Char.isHexDigit = true))

theorem length_utf8 (s : String) : (utf8 s).length = s.utf8ByteSize := by
  rw [← String.size_toByteArray, ← String.utf8Encode_toList, List.utf8Encode, List.size_toByteArray,
    utf8]

theorem isHexText_iff {s : String} : IsHexText s ↔
    (utf8 s).length % 2 = 0 ∧ ∀ b ∈ utf8 s, (Text.Hex.value? b).isSome = true := by
  rw [length_utf8, IsHexText, utf8, List.all_eq_true, List.forall_mem_flatMap]
  simp only [Text.Hex.forall_mem_utf8EncodeChar]

theorem toList_toHex (h : CommitHash) : h.toHex.toList = Text.Hex.encode h.bytes :=
  String.toList_ofList

theorem toHex_injective : Function.Injective toHex := by
  intro h k heq
  have hbytes : h.bytes = k.bytes := by
    refine Text.Hex.encode_injective ?_
    rw [← toList_toHex, heq, toList_toHex]
  cases h; cases k
  exact congrArg mk hbytes

/-- A hexadecimal text is read as the hash that is written as the same text in lower case. -/
theorem ofHex?_of_isHexText {s : String} (hs : IsHexText s) :
    ∃ h, ofHex? s = .ok h ∧ h.toHex = s.toLower := by
  obtain ⟨heven, hbytes⟩ := isHexText_iff.1 hs
  obtain ⟨bs, hread, hbs⟩ := Text.Hex.decode_of_digits heven hbytes
  have hdigits := List.all_eq_true.1 hs.2
  refine ⟨⟨bs⟩, by rw [ofHex?, hread], ?_⟩
  have hlower : Text.Hex.encode bs = s.toList.map Char.toLower := by
    rw [hbs, utf8, Text.Hex.flatMap_utf8EncodeChar hdigits, List.map_map]
    exact List.map_congr_left fun c hc =>
      Text.Hex.lowered_toUInt8 (Text.Hex.toNat_le_of_isHexDigit (hdigits c hc))
  rw [← String.toList_inj, toList_toHex, hlower, String.toLower, String.toList_map]

theorem ofHex?_of_not_isHexText {s : String} (hs : ¬ IsHexText s) :
    ∃ fault : Text.Hex.Fault, fault.Concerns (utf8 s) ∧
      ofHex? s = .error (.invalidRecord (.badCommitHash s fault)) := by
  rw [isHexText_iff] at hs
  obtain ⟨fault, hfault⟩ := Text.Hex.exists_concerns hs
  exact ⟨fault, hfault, by rw [ofHex?, Text.Hex.decode_of_concerns hfault]⟩

/-! ### Written hashes -/

theorem toLower_toHex (h : CommitHash) : h.toHex.toLower = h.toHex := by
  rw [← String.toList_inj, String.toLower, String.toList_map, toList_toHex]
  exact (List.map_congr_left fun c hc => (Text.Hex.forall_mem_encode c hc).2).trans (List.map_id _)

theorem isHexText_toHex (h : CommitHash) : IsHexText h.toHex := by
  have hdigits : ∀ c ∈ h.toHex.toList, c.isHexDigit = true := by
    rw [toList_toHex]
    exact fun c hc => (Text.Hex.forall_mem_encode c hc).1
  refine ⟨?_, List.all_eq_true.2 hdigits⟩
  rw [← length_utf8, utf8, Text.Hex.flatMap_utf8EncodeChar hdigits, List.length_map, toList_toHex,
    Text.Hex.length_encode]
  exact Nat.mul_mod_right 2 _

theorem ofHex?_toHex (h : CommitHash) : ofHex? h.toHex = .ok h := by
  -- the text is its own lower case, and no other hash is written so
  obtain ⟨k, hread, hk⟩ := ofHex?_of_isHexText (isHexText_toHex h)
  rw [toLower_toHex] at hk
  rw [hread, toHex_injective hk]

theorem toList_short (h : CommitHash) : h.short.toList = h.toHex.toList.take 8 := by
  rw [toList_toHex, short, String.toList_ofList]

theorem length_short (h : CommitHash) : h.short.length = min 8 (2 * h.bytes.length) := by
  rw [← String.length_toList, toList_short, toList_toHex, List.length_take, Text.Hex.length_encode]

theorem exists_ofHex?_iff {s : String} : (∃ h, ofHex? s = .ok h) ↔ IsHexText s := by
  constructor
  · rintro ⟨h, hread⟩
    by_contra hs
    obtain ⟨fault, -, hrefused⟩ := ofHex?_of_not_isHexText hs
    cases hread.symm.trans hrefused
  · intro hs
    obtain ⟨h, hread, -⟩ := ofHex?_of_isHexText hs
    exact ⟨h, hread⟩

theorem toHex_of_ofHex? {s : String} {h : CommitHash} (hread : ofHex? s = .ok h) :
    h.toHex = s.toLower := by
  obtain ⟨k, hread', hk⟩ := ofHex?_of_isHexText (exists_ofHex?_iff.1 ⟨h, hread⟩)
  cases hread.symm.trans hread'
  exact hk

/-- The text of a hash is a faithful encoding.  It is read back as the hash, and the short form is its
first eight digits or all of them.  Exactly the hexadecimal texts are read, each as the hash whose text is
the same in lower case, so two of them stand for one hash iff they are equal up to case.  Any other
text is refused as an invalid record, for its length or else for its first byte that is no digit. -/
theorem ofHex?_inverts_toHex (s t : String) (h k : CommitHash) :
    ofHex? h.toHex = .ok h ∧
    (h.short.toList <+: h.toHex.toList ∧ h.short.length = min 8 (2 * h.bytes.length)) ∧
    ((∃ h', ofHex? s = .ok h') ↔ IsHexText s) ∧
    (ofHex? s = .ok h → h.toHex = s.toLower) ∧
    (ofHex? s = .ok h → ofHex? t = .ok k → (h = k ↔ s.toLower = t.toLower)) ∧
    (¬ IsHexText s → ∃ fault : Text.Hex.Fault, fault.Concerns (utf8 s) ∧
      ofHex? s = .error (.invalidRecord (.badCommitHash s fault))) := by
  refine ⟨ofHex?_toHex h, ⟨?_, length_short h⟩, exists_ofHex?_iff, toHex_of_ofHex?, fun hs ht => ?_,
    ofHex?_of_not_isHexText⟩
  · rw [toList_short]
    exact List.take_prefix 8 _
  · rw [← toHex_of_ofHex? hs, ← toHex_of_ofHex? ht, toHex_injective.eq_iff]

def threeBytes : CommitHash := ⟨[0x04, 0x65, 0xd3]⟩

/-- Two spellings of one hash, and a text with a letter of two bytes between two digits. -/
theorem ofHex?_inverts_toHex_spellings :
    (ofHex? "0465D3" = .ok threeBytes ∧ ofHex? "0465d3" = .ok threeBytes ∧
      threeBytes.toHex = "0465D3".toLower ∧ "0465D3".toLower = "0465d3".toLower) ∧
    ¬ IsHexText "4éf" ∧ ∃ fault : Text.Hex.Fault, fault.Concerns (utf8 "4éf") ∧
      ofHex? "4éf" = .error (.invalidRecord (.badCommitHash "4éf" fault)) := by
  have hupper : ofHex? "0465D3" = .ok threeBytes := by decide +kernel
  have hlower : ofHex? "0465d3" = .ok threeBytes := by decide +kernel
  have hother : ¬ IsHexText "4éf" := by decide +kernel
  obtain ⟨-, -, -, htext, hsame, -⟩ :=
    ofHex?_inverts_toHex "0465D3" "0465d3" threeBytes threeBytes
  obtain ⟨-, -, -, -, -, hrefused⟩ := ofHex?_inverts_toHex "4éf" "" threeBytes threeBytes
  exact ⟨⟨hupper, hlower, htext hupper, (hsame hupper hlower).1 rfl⟩, hother, hrefused hother⟩

end Triage.CommitHash
