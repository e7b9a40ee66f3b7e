import CodexMonitor.Lib.Text
import CodexMonitor.Store.Requests

/-!
# Generated identifiers

Everything the store generates is built from version-4 UUIDs and revisions.  The
texts have a fixed shape, so the parts can be read back: two notifications share
an event id only when they share the request and the revision, and every generated
identifier passes the store's own identifier check.
-/

namespace CodexMonitor

/-! ## UUID texts -/

theorem Uuid.length_text (uuid : Uuid) : uuid.text.toList.length = 36 := by
  have h := uuid.isUuid
  unfold isUuidText at h
  simp only [Bool.decide_and, Bool.and_eq_true, decide_eq_true_eq] at h
  exact h.1

/-- A character of a UUID text: a hexadecimal digit or a hyphen. -/
theorem Uuid.mem_text (uuid : Uuid) {i : Nat} {c : Char} (h : uuid.text.toList[i]? = some c) :
    (i ∈ [8, 13, 18, 23] ∧ c = '-') ∨
      (i ∉ [8, 13, 18, 23] ∧ (c.isDigit = true ∨ ('a' ≤ c ∧ c ≤ 'f'))) := by
  have hall := uuid.isUuid
  unfold isUuidText at hall
  simp only [Bool.decide_and, Bool.and_eq_true, decide_eq_true_eq, List.all_eq_true] at hall
  have hmem : (c, i) ∈ uuid.text.toList.zipIdx := by
    rw [List.mem_zipIdx_iff_getElem?]
    exact h
  have hc := hall.2 (c, i) hmem
  by_cases hi : i ∈ [8, 13, 18, 23]
  · simp only [if_pos hi, decide_eq_true_eq] at hc
    exact Or.inl ⟨hi, hc⟩
  · simp only [if_neg hi] at hc
    exact Or.inr ⟨hi, by simpa using hc⟩

/-- A text is at most four times as many bytes as characters. -/
theorem utf8ByteSize_le (s : String) : s.utf8ByteSize ≤ 4 * s.toList.length := by
  have hlist : ∀ l : List Char, (String.ofList l).utf8ByteSize ≤ 4 * l.length := by
    intro l
    induction l with
    | nil => exact Nat.le_refl 0
    | cons c l ih =>
        have hc := c.utf8Size_le_four
        rw [Text.ofList_cons_bytes, List.length_cons]
        omega
  have h := hlist s.toList
  rwa [String.ofList_toList] at h

theorem isAlphanum_of_hex {c : Char} (h : c.isDigit = true ∨ ('a' ≤ c ∧ c ≤ 'f')) :
    c.isAlphanum = true := by
  show (c.isAlpha || c.isDigit) = true
  rcases h with hdigit | ⟨hlow, hhigh⟩
  · rw [hdigit]
    exact Bool.or_true _
  · have hfz : 'f' ≤ 'z' := by decide
    have hlower : c.isLower = true := by
      exact Bool.and_eq_true_iff.mpr
        ⟨decide_eq_true hlow, decide_eq_true (Char.le_trans hhigh hfz)⟩
    have halpha : c.isAlpha = true := by
      show (c.isUpper || c.isLower) = true
      rw [hlower]
      exact Bool.or_true _
    rw [halpha]
    rfl

/-- A UUID text passes the identifier check. -/
theorem Uuid.isIdentifier (uuid : Uuid) : isIdentifier uuid.text = true := by
  have hlength := uuid.length_text
  have hsize := utf8ByteSize_le uuid.text
  have hmem : ∀ (i : Nat) c, uuid.text.toList[i]? = some c → isNameChar c = true := by
    intro i c hc
    unfold isNameChar
    rcases uuid.mem_text hc with ⟨_, rfl⟩ | ⟨_, hhex⟩
    · decide
    · simp [isAlphanum_of_hex hhex]
  have hfirst : ∀ c, uuid.text.toList[0]? = some c → c.isAlphanum = true := by
    intro c hc
    rcases uuid.mem_text hc with ⟨hzero, _⟩ | ⟨_, hhex⟩
    · exact absurd hzero (by decide)
    · exact isAlphanum_of_hex hhex
  unfold CodexMonitor.isIdentifier
  cases hlist : uuid.text.toList with
  | nil =>
      rw [hlist] at hlength
      cases hlength
  | cons c cs =>
      rw [hlist] at hfirst hmem hsize hlength
      have hbound : uuid.text.utf8ByteSize ≤ maxIdentifierBytes := by
        unfold maxIdentifierBytes
        omega
      have hall : ((c :: cs).all isNameChar) = true := by
        rw [List.all_eq_true]
        intro d hd
        obtain ⟨i, hi⟩ := List.mem_iff_getElem?.mp hd
        exact hmem i d hi
      simp only [hbound, hfirst c rfl, hall, decide_true, Bool.decide_and, Bool.and_self]

/-! ## Reading the parts back -/

/-- The decimal text of a nonnegative revision determines it. -/
theorem revisionText_inj {n m : Int} (hn : 0 ≤ n) (hm : 0 ≤ m) (h : toString n = toString m) :
    n = m := by
  obtain ⟨a, rfl⟩ := Int.eq_ofNat_of_zero_le hn
  obtain ⟨b, rfl⟩ := Int.eq_ofNat_of_zero_le hm
  have htext : a.repr = b.repr := h
  have hdigits : Nat.toDigits 10 a = Nat.toDigits 10 b := by
    rw [← Nat.toList_repr, ← Nat.toList_repr, htext]
  have hvalue := congrArg (fun l => Nat.ofDigitChars 10 l 0) hdigits
  simp only [Nat.ofDigitChars_ten_toDigits] at hvalue
  rw [hvalue]

/-- Texts of one shape: a fixed head, a UUID, a hyphen and a revision. -/
theorem uuid_revision_inj (head : String) {u v : Uuid} {n m : Int} (hn : 0 ≤ n) (hm : 0 ≤ m)
    (h : head ++ u.text ++ "-" ++ toString n = head ++ v.text ++ "-" ++ toString m) :
    u.text = v.text ∧ n = m := by
  have hlist := congrArg String.toList h
  simp only [String.toList_append, List.append_assoc, List.append_cancel_left_eq] at hlist
  have hlength : u.text.toList.length = v.text.toList.length := by
    rw [u.length_text, v.length_text]
  obtain ⟨huuid, hrest⟩ := List.append_inj hlist hlength
  have hrevision := List.append_cancel_left hrest
  exact ⟨String.toList_inj.mp huuid, revisionText_inj hn hm (String.toList_inj.mp hrevision)⟩

theorem requestEventId_inj {u v : Uuid} {n m : Int} (hn : 0 ≤ n) (hm : 0 ≤ m)
    (h : requestEventId u.text n = requestEventId v.text m) : u.text = v.text ∧ n = m :=
  uuid_revision_inj "request-" hn hm h

theorem requestNotificationId_inj {u v : Uuid} {n m : Int} (hn : 0 ≤ n) (hm : 0 ≤ m)
    (h : requestNotificationId u.text n = requestNotificationId v.text m) :
    u.text = v.text ∧ n = m :=
  uuid_revision_inj "request-notification-" hn hm h

end CodexMonitor
