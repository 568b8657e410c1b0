import DeviceAuth.Bytes

namespace DeviceAuth.Text

def utf8 (s : String) : Bytes :=
  s.toUTF8.data.toList

def ofUtf8? (b : Bytes) : Option String :=
  String.fromUTF8? ⟨b.toArray⟩

theorem ofUtf8?_utf8 (s : String) : ofUtf8? (utf8 s) = some s := by
  unfold ofUtf8? utf8 String.fromUTF8?
  have h : (⟨s.toUTF8.data.toList.toArray⟩ : ByteArray) = s.toByteArray := by simp [String.toUTF8]
  rw [h, dif_pos s.isValidUTF8]
  rfl

theorem utf8_of_ofUtf8? {b : Bytes} {s : String} (h : ofUtf8? b = some s) : utf8 s = b := by
  unfold ofUtf8? String.fromUTF8? at h
  split at h
  · cases h
    simp [utf8, String.toUTF8, String.fromUTF8]
  · simp at h

theorem ofUtf8?_eq_some {b : Bytes} {s : String} : ofUtf8? b = some s ↔ b = utf8 s :=
  ⟨fun h => (utf8_of_ofUtf8? h).symm, fun h => h ▸ ofUtf8?_utf8 s⟩

theorem utf8_injective {s t : String} (h : utf8 s = utf8 t) : s = t := by
  have hs := ofUtf8?_utf8 s
  rw [h, ofUtf8?_utf8] at hs
  exact (Option.some.inj hs).symm

end DeviceAuth.Text
