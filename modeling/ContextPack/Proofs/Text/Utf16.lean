import ContextPack.Text.Utf16
import ContextPack.Proofs.Text.Utf8

namespace ContextPack.Utf16

/-!
# UTF-16 bytes and texts

Decoding the bytes of a text gives the text again, in either order of bytes.
Bytes and units are inverse to each other; a unit of a text is no surrogate or
belongs to a pair, so nothing waits when the next character begins.
-/

/-! ## Bytes and units -/

theorem code_bytes (order : ByteOrder) {unit : Nat} (small : unit < 0x10000) :
    ∃ first second, order.bytes unit = [first, second] ∧ order.code first second = unit := by
  have high := Utf8.toNat_ofNat (n := unit / 256) (by omega)
  have low := Utf8.toNat_ofNat (n := unit % 256) (by omega)
  cases order with
  | little =>
      refine ⟨_, _, rfl, ?_⟩
      rw [ByteOrder.code, high, low]
      omega
  | big =>
      refine ⟨_, _, rfl, ?_⟩
      rw [ByteOrder.code, high, low]
      omega

/-- The bytes of units are read as these units, and none is left over. -/
theorem codes_bytes (order : ByteOrder) {units : List Nat} (small : ∀ unit ∈ units, unit < 0x10000) :
    codes order (units.flatMap order.bytes) = (units, false) := by
  induction units with
  | nil => rfl
  | cons unit rest inductionHypothesis =>
      rcases List.forall_mem_cons.mp small with ⟨first, others⟩
      rcases code_bytes order first with ⟨one, another, bytes, code⟩
      have front : (unit :: rest).flatMap order.bytes =
          one :: another :: rest.flatMap order.bytes := by
        rw [List.flatMap_cons, bytes]
        rfl
      rw [front, codes, inductionHypothesis others, code]

/-! ## Units and characters -/

theorem lt_of_mem_charCodes {c : Char} {unit : Nat} (member : unit ∈ charCodes c) :
    unit < 0x10000 := by
  have scalar := Utf8.isScalar c
  unfold charCodes at member
  dsimp only at member
  split at member
  · next small =>
      rw [List.mem_singleton.mp member]
      exact small
  · simp only [List.mem_cons, List.not_mem_nil, or_false] at member
    rcases member with isLead | isTrail <;> omega

/-- Reading the units of a character gives the character. -/
theorem read_charCodes (odd : Bool) (c : Char) (rest : List Nat) :
    read odd none (charCodes c ++ rest) = c :: read odd none rest := by
  have scalar := Utf8.isScalar c
  by_cases small : c.toNat < 0x10000
  · have codes : charCodes c = [c.toNat] := if_pos small
    have noLead : isLead c.toNat = false := by
      simp only [isLead, Bool.and_eq_false_iff, decide_eq_false_iff_not]
      omega
    have noTrail : isTrail c.toNat = false := by
      simp only [isTrail, Bool.and_eq_false_iff, decide_eq_false_iff_not]
      omega
    simp [codes, read, noLead, noTrail]
  · let lead := 0xD800 + (c.toNat - 0x10000) / 0x400
    let trail := 0xDC00 + (c.toNat - 0x10000) % 0x400
    have codes : charCodes c = [lead, trail] := if_neg small
    have isLead : isLead lead = true := by
      simp only [isLead, Bool.and_eq_true, decide_eq_true_eq, lead]
      omega
    have isTrail : isTrail trail = true := by
      simp only [isTrail, Bool.and_eq_true, decide_eq_true_eq, trail]
      omega
    have together : pair lead trail = c := by
      have value : 0x10000 + (lead - 0xD800) * 0x400 + (trail - 0xDC00) = c.toNat := by omega
      rw [pair, value]
      exact Char.ofNat_toNat c
    simp [codes, read, isLead, isTrail, together]

theorem read_flatMap_charCodes (odd : Bool) (text : List Char) :
    read odd none (text.flatMap charCodes) = text ++ read odd none [] := by
  induction text with
  | nil => rfl
  | cons c rest inductionHypothesis =>
      rw [List.flatMap_cons, read_charCodes, inductionHypothesis]
      rfl

@[simp] theorem decode_encode (order : ByteOrder) (text : List Char) :
    decode order (encode order text) = text := by
  have small : ∀ unit ∈ text.flatMap charCodes, unit < 0x10000 := by
    intro unit member
    rcases List.mem_flatMap.mp member with ⟨c, -, ofChar⟩
    exact lt_of_mem_charCodes ofChar
  rw [decode, encode, codes_bytes order small]
  dsimp only
  rw [read_flatMap_charCodes]
  exact List.append_nil text

end ContextPack.Utf16
