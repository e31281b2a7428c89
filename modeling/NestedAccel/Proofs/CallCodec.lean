import Mathlib.Tactic.IntervalCases
import NestedAccel.Sbi.Call

/-!
# `NestedAccel.Proofs.CallCodec` — the words of a call

A call and its eight argument words are two views of the same thing, but not one to one: a function does not
look at the operands that it does not take, so many lists of words are the same call. This module says exactly
which words matter.

* `Call.arity` is the number of operands that a function takes, and they come first;
* `Call.Understood` lists the functions there are, by their numbers;
* `Call.ofArguments_cases` takes a decoded list of words apart, whatever it is decoded to.

**`Call.ofArguments_exact`** puts the two directions together: encoding loses nothing, and decoding succeeds for
the functions there are and reads their numbers and their operands only.
-/

namespace NestedAccel

/-! ## Operands -/

/-- The number of operands that the function takes. -/
def BaseCall.arity : BaseCall → Nat
  | probeExtension _ => 1
  | specificationVersion | implementationId | implementationVersion => 0

theorem BaseCall.arity_le (c : BaseCall) : c.arity ≤ 1 := by
  unfold arity
  split <;> decide

/-- The number of operands that the function takes. -/
def AccelCall.arity : AccelCall → Nat
  | getVersion | getMode => 0
  | probeFeature _ | syncHfence _ | syncSret _ => 1
  | setShmem .. | syncCsr .. | batchExecute .. | setMode .. | getStatistic .. => 2
  | injectInterrupt .. => 3

theorem AccelCall.arity_le (c : AccelCall) : c.arity ≤ 3 := by
  unfold arity
  split <;> decide

namespace Call

/-- The number of operands that the function takes. -/
def arity : Call → Nat
  | base c => c.arity
  | accel c => c.arity

/-- There is a function with number `f` in an extension with number `ext`: four in the base extension, and
    eleven in the nested acceleration extension. -/
def Understood (f ext : Word) : Prop := ext = 0x10 ∧ f ≤ 3 ∨ ext = 0x4E41434C ∧ f ≤ 10

instance (f ext : Word) : Decidable (Understood f ext) := inferInstanceAs (Decidable (_ ∨ _))

/-- The call has the given numbers, and its operands are those of `words` that its function takes. -/
structure Reads (c : Call) (words : List Word) (f ext : Word) : Prop where
  extension : c.extension = ext
  functionId : c.functionId = f
  operands : c.operands = words.take c.arity ++ List.replicate (6 - c.arity) 0

/-- Functions with the same numbers take the same number of operands. -/
theorem arity_eq {c c' : Call} (hext : c.extension = c'.extension) (hf : c.functionId = c'.functionId) :
    c.arity = c'.arity := by
  -- two functions of one extension are the same, or differ in their numbers
  cases c with
  | base b =>
    cases c' with
    | base b' => cases b <;> cases b' <;> first | rfl | cases hf
    | accel b' => cases hext
  | accel b =>
    cases c' with
    | base b' => cases hext
    | accel b' => cases b <;> cases b' <;> first | rfl | cases hf

/-- The words of a call say which call it is. -/
theorem arguments_injective {c c' : Call} (h : c.arguments = c'.arguments) : c = c' := by
  have hok : Except.ok c = (.ok c' : Except SbiError Call) := by
    rw [← ofArguments_arguments c, h, ofArguments_arguments]
  cases hok
  rfl

end Call

/-! ## Decoding -/

/-- A word up to `m` is the word of a number up to `m`. -/
theorem Word.exists_of_le {w m : Word} (h : w ≤ m) : ∃ k ≤ m.toNat, w = UInt64.ofNat k :=
  ⟨w.toNat, UInt64.le_iff_toNat_le.1 h, UInt64.ofNat_toNat.symm⟩

namespace BaseCall

theorem decode_ok {f : Word} (h : f ≤ 3) (a : Word) :
    ∃ c, decode f a = .ok c ∧ c.functionId = f ∧
      c.operands = [a].take c.arity ++ List.replicate (6 - c.arity) 0 := by
  obtain ⟨k, hk, rfl⟩ := Word.exists_of_le h
  have hk : k ≤ 3 := hk
  interval_cases k <;> exact ⟨_, rfl, rfl, rfl⟩

theorem decode_error {f : Word} (h : ¬f ≤ 3) (a : Word) : decode f a = .error .notSupported := by
  unfold decode
  split
  case h_5 => rfl
  all_goals exact absurd (UInt64.le_iff_toNat_le.2 (le_of_eq_of_le ‹_› (by decide))) h

end BaseCall

namespace AccelCall

theorem decode_ok {f : Word} (h : f ≤ 10) (a b c : Word) :
    ∃ call, decode f a b c = .ok call ∧ call.functionId = f ∧
      call.operands = [a, b, c].take call.arity ++ List.replicate (6 - call.arity) 0 := by
  obtain ⟨k, hk, rfl⟩ := Word.exists_of_le h
  have hk : k ≤ 10 := hk
  interval_cases k <;> exact ⟨_, rfl, rfl, rfl⟩

theorem decode_error {f : Word} (h : ¬f ≤ 10) (a b c : Word) :
    decode f a b c = .error .notSupported := by
  unfold decode
  split
  case h_12 => rfl
  all_goals exact absurd (UInt64.le_iff_toNat_le.2 (le_of_eq_of_le ‹_› (by decide))) h

end AccelCall

namespace Call

theorem ofArguments_base {a b c x y z f ext : Word} (h : ext = BaseCall.extension) (rest : List Word) :
    ofArguments (a :: b :: c :: x :: y :: z :: f :: ext :: rest) = base <$> BaseCall.decode f a :=
  if_pos h

theorem ofArguments_accel {a b c x y z f ext : Word} (h : ext = AccelCall.extension)
    (rest : List Word) :
    ofArguments (a :: b :: c :: x :: y :: z :: f :: ext :: rest) =
      accel <$> AccelCall.decode f a b c := by
  subst h
  rfl

theorem ofArguments_other {a b c x y z f ext : Word} (hbase : ext ≠ BaseCall.extension)
    (haccel : ext ≠ AccelCall.extension) (rest : List Word) :
    ofArguments (a :: b :: c :: x :: y :: z :: f :: ext :: rest) = .error .notSupported :=
  (if_neg hbase).trans (if_neg haccel)

/-- What becomes of eight words or more: they are refused if there is no such function, and otherwise they are
    a call that reads them. -/
theorem ofArguments_cases (a b c x y z f ext : Word) (rest : List Word) :
    let words := a :: b :: c :: x :: y :: z :: f :: ext :: rest
    (Understood f ext ∧ ∃ call, ofArguments words = .ok call ∧ call.Reads words f ext) ∨
    (¬Understood f ext ∧ ofArguments words = .error .notSupported) := by
  intro words
  unfold Understood
  by_cases hbase : ext = BaseCall.extension
  · rw [show ofArguments words = _ from ofArguments_base hbase rest]
    by_cases hf : f ≤ 3
    · obtain ⟨call, hok, hid, hoperands⟩ := BaseCall.decode_ok hf a
      rw [hok]
      refine .inl ⟨.inl ⟨hbase, hf⟩, base call, rfl, hbase.symm, hid, ?_⟩
      rw [show words = [a] ++ _ from rfl, List.take_append_of_le_length call.arity_le]
      exact hoperands
    · rw [BaseCall.decode_error hf]
      refine .inr ⟨?_, rfl⟩
      rintro (⟨_, hle⟩ | ⟨hext, _⟩)
      · exact hf hle
      · cases hbase.symm.trans hext
  · by_cases haccel : ext = AccelCall.extension
    · rw [show ofArguments words = _ from ofArguments_accel haccel rest]
      by_cases hf : f ≤ 10
      · obtain ⟨call, hok, hid, hoperands⟩ := AccelCall.decode_ok hf a b c
        rw [hok]
        refine .inl ⟨.inr ⟨haccel, hf⟩, accel call, rfl, haccel.symm, hid, ?_⟩
        rw [show words = [a, b, c] ++ _ from rfl, List.take_append_of_le_length call.arity_le]
        exact hoperands
      · rw [AccelCall.decode_error hf]
        refine .inr ⟨?_, rfl⟩
        rintro (⟨hext, _⟩ | ⟨_, hle⟩)
        · exact hbase hext
        · exact hf hle
    · refine .inr ⟨?_, ofArguments_other hbase haccel rest⟩
      rintro (⟨hext, _⟩ | ⟨hext, _⟩)
      · exact hbase hext
      · exact haccel hext

/-- A list of words is too short, or it has the eight words that are looked at. -/
theorem short_or_eight (words : List Word) :
    words.length < 8 ∧ ofArguments words = .error .invalidParam ∨
    ∃ a b c x y z f ext rest, words = a :: b :: c :: x :: y :: z :: f :: ext :: rest := by
  match words with
  | [] | [_] | [_, _] | [_, _, _] | [_, _, _, _] | [_, _, _, _, _] | [_, _, _, _, _, _]
  | [_, _, _, _, _, _, _] => exact .inl ⟨by simp, rfl⟩
  | a :: b :: c :: x :: y :: z :: f :: ext :: rest =>
    exact .inr ⟨a, b, c, x, y, z, f, ext, rest, rfl⟩

/-- A call reads the words that it has been decoded from. -/
theorem exists_of_ofArguments {words : List Word} {c : Call} (h : ofArguments words = .ok c) :
    ∃ f ext, words[6]? = some f ∧ words[7]? = some ext ∧ Understood f ext ∧ c.Reads words f ext := by
  rcases short_or_eight words with ⟨_, herror⟩ | ⟨a, b, d, x, y, z, f, ext, rest, rfl⟩
  · cases herror.symm.trans h
  · rcases ofArguments_cases a b d x y z f ext rest with ⟨hknown, c', hok, hreads⟩ | ⟨_, herror⟩
    · cases hok.symm.trans h
      exact ⟨f, ext, rfl, rfl, hknown, hreads⟩
    · cases herror.symm.trans h

/-- Eight words with the numbers of a function are a call of it. -/
theorem exists_ofArguments {words : List Word} {f ext : Word} (hf : words[6]? = some f)
    (hext : words[7]? = some ext) (hknown : Understood f ext) : ∃ c, ofArguments words = .ok c := by
  rcases short_or_eight words with ⟨hshort, _⟩ | ⟨a, b, d, x, y, z, f', ext', rest, rfl⟩
  · rw [List.getElem?_eq_none (by omega)] at hext
    cases hext
  · cases hf
    cases hext
    rcases ofArguments_cases a b d x y z f ext rest with ⟨_, c, hok, _⟩ | ⟨hnot, _⟩
    · exact ⟨c, hok⟩
    · exact absurd hknown hnot

/-- **Only the numbers and the operands of a call are read.** -/
theorem ofArguments_congr {words words' : List Word} {c : Call} (h : ofArguments words = .ok c)
    (hsame : ∀ i, i < c.arity ∨ i = 6 ∨ i = 7 → words'[i]? = words[i]?) :
    ofArguments words' = .ok c := by
  obtain ⟨f, ext, hf, hext, hknown, hreads⟩ := exists_of_ofArguments h
  have hf' : words'[6]? = some f := (hsame 6 (.inr (.inl rfl))).trans hf
  have hext' : words'[7]? = some ext := (hsame 7 (.inr (.inr rfl))).trans hext
  obtain ⟨c', hok⟩ := exists_ofArguments hf' hext' hknown
  obtain ⟨g, ext', hg, hext'', _, hreads'⟩ := exists_of_ofArguments hok
  cases hf'.symm.trans hg
  cases hext'.symm.trans hext''
  -- a call of the same function with the same operands is the same call
  have hextension : c'.extension = c.extension := hreads'.extension.trans hreads.extension.symm
  have hid : c'.functionId = c.functionId := hreads'.functionId.trans hreads.functionId.symm
  have harity : c'.arity = c.arity := arity_eq hextension hid
  have htake : words'.take c.arity = words.take c.arity := by
    refine List.ext_getElem? fun i => ?_
    rw [List.getElem?_take, List.getElem?_take]
    split
    · exact hsame i (.inl ‹_›)
    · rfl
  have hoperands : c'.operands = c.operands := by
    rw [hreads'.operands, hreads.operands, harity, htake]
  have hc : c' = c := by
    refine arguments_injective ?_
    unfold arguments
    rw [hoperands, hid, hextension]
  rw [hok, hc]

/-- **The words of a call are exact.** Decoding the operands of a call and its two numbers gives the call back.
    A list of words is a call exactly if it has eight words and the last two of these are the numbers of a
    function. Shorter lists have an invalid parameter, and others are not supported. A call that has been
    decoded has those two numbers, and its six operands are the first words, with zero in the place of an
    operand that its function does not take. No other word makes a difference. -/
theorem ofArguments_exact :
    (∀ c : Call, ofArguments (c.operands ++ [c.functionId, c.extension]) = .ok c ∧
      c.operands.length = 6) ∧
    ∀ words : List Word,
      ((∃ c, ofArguments words = .ok c) ↔
        ∃ f ext, words[6]? = some f ∧ words[7]? = some ext ∧ Understood f ext) ∧
      (words.length < 8 → ofArguments words = .error .invalidParam) ∧
      (∀ f ext, words[6]? = some f → words[7]? = some ext → ¬Understood f ext →
        ofArguments words = .error .notSupported) ∧
      ∀ c, ofArguments words = .ok c →
        words[7]? = some c.extension ∧ words[6]? = some c.functionId ∧
        c.operands = words.take c.arity ++ List.replicate (6 - c.arity) 0 ∧
        ∀ words' : List Word, (∀ i, i < c.arity ∨ i = 6 ∨ i = 7 → words'[i]? = words[i]?) →
          ofArguments words' = .ok c := by
  refine ⟨fun c => ⟨ofArguments_arguments c, ?_⟩, fun words => ⟨⟨?_, ?_⟩, ?_, ?_, ?_⟩⟩
  · cases c with
    | base c => cases c <;> rfl
    | accel c => cases c <;> rfl
  · rintro ⟨c, hok⟩
    obtain ⟨f, ext, hf, hext, hknown, _⟩ := exists_of_ofArguments hok
    exact ⟨f, ext, hf, hext, hknown⟩
  · rintro ⟨f, ext, hf, hext, hknown⟩
    exact exists_ofArguments hf hext hknown
  · intro hshort
    rcases short_or_eight words with ⟨_, herror⟩ | ⟨a, b, d, x, y, z, f, ext, rest, rfl⟩
    · exact herror
    · simp only [List.length_cons] at hshort
      omega
  · intro f ext hf hext hnot
    rcases short_or_eight words with ⟨hshort, _⟩ | ⟨a, b, d, x, y, z, f', ext', rest, rfl⟩
    · rw [List.getElem?_eq_none (by omega)] at hext
      cases hext
    · cases hf
      cases hext
      exact (ofArguments_cases a b d x y z f ext rest).resolve_left (fun h => hnot h.1) |>.2
  · intro c hok
    obtain ⟨f, ext, hf, hext, _, hreads⟩ := exists_of_ofArguments hok
    refine ⟨?_, ?_, hreads.operands, fun words' hsame => ofArguments_congr hok hsame⟩
    · rw [hext, hreads.extension]
    · rw [hf, hreads.functionId]

/-- Nine words, with numbers in the places of operands that the function does not take. Seven of them are too
    few, and there is no twelfth function. -/
theorem ofArguments_exact_nine :
    let words : List Word := [0, 6, 2, 7, 8, 9, 6, 0x4E41434C, 5]
    let call : Call := .accel (.injectInterrupt 0 6 2)
    ofArguments words = .ok call ∧ words[7]? = some call.extension ∧ words[6]? = some call.functionId ∧
    call.operands = [0, 6, 2, 0, 0, 0] ∧
    ofArguments [0, 6, 2, 0, 0, 0, 6, 0x4E41434C] = .ok call ∧
    ofArguments (words.take 7) = .error .invalidParam ∧
    ofArguments (words.set 6 11) = .error .notSupported := by
  intro words call
  have hok : ofArguments words = .ok call := by decide
  obtain ⟨_, _, _, hread⟩ := ofArguments_exact.2 words
  obtain ⟨hext, hf, hoperands, hother⟩ := hread call hok
  obtain ⟨_, hshort, _⟩ := ofArguments_exact.2 (words.take 7)
  obtain ⟨_, _, hunknown, _⟩ := ofArguments_exact.2 (words.set 6 11)
  refine ⟨hok, hext, hf, hoperands, hother _ fun i hi => ?_, hshort (by decide), ?_⟩
  · have hlt : i < 8 := by
      have harity : call.arity = 3 := rfl
      omega
    interval_cases i <;> first | rfl | exact absurd hi (by decide)
  · exact hunknown 11 0x4E41434C rfl rfl (by decide)

end Call

end NestedAccel
