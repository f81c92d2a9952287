import Scim.Text.CharClass
import Scim.Text.Part

/-!
# Splitting and trimming a text

A text is split at each occurrence of a separator or at the last one, and put together
again with the separator between the parts.  A text that has no blank at either end is
its own trimmed form.
-/

namespace Scim.Text

/-! ## Splitting -/

theorem splitLast?_eq_some {separator : Char} {text before after : List Char}
    (split : splitLast? separator text = some (before, after)) :
    text = before ++ separator :: after := by
  induction text generalizing before with
  | nil => cases split
  | cons c rest ih =>
      rw [splitLast?] at split
      cases found : splitLast? separator rest with
      | some parts =>
          rw [found] at split
          cases split
          rw [ih found, List.cons_append]
      | none =>
          rw [found] at split
          dsimp only at split
          split at split
          · next same =>
            cases split
            rw [same, List.nil_append]
          · cases split

theorem splitLast?_eq_none {separator : Char} {text : List Char} (absent : separator ∉ text) :
    splitLast? separator text = none := by
  induction text with
  | nil => exact splitLast?_nil separator
  | cons c rest ih =>
      rw [List.mem_cons, not_or] at absent
      rw [splitLast?, ih absent.2]
      simp [Ne.symm absent.1]

theorem splitLast?_append {separator : Char} {after : List Char} (absent : separator ∉ after)
    (before : List Char) :
    splitLast? separator (before ++ separator :: after) = some (before, after) := by
  have none : splitLast? separator after = none := splitLast?_eq_none absent
  induction before with
  | nil => simp [splitLast?, none]
  | cons c rest ih => rw [List.cons_append, splitLast?, ih]

theorem splitAt_ne_nil (separator : Char) (text : List Char) : splitAt separator text ≠ [] := by
  cases text with
  | nil => simp
  | cons c rest =>
      rw [splitAt]
      split
      · simp
      · split <;> simp

/-- The parts of a text with the separator between them are the text. -/
theorem intercalate_splitAt (separator : Char) (text : List Char) :
    [separator].intercalate (splitAt separator text) = text := by
  induction text with
  | nil => rfl
  | cons c rest ih =>
      rw [splitAt]
      split
      · next same =>
        cases parts : splitAt separator rest with
        | nil => exact absurd parts (splitAt_ne_nil separator rest)
        | cons first others =>
            rw [parts] at ih
            rw [List.intercalate_cons_cons, ih, same, List.nil_append, List.singleton_append]
      · cases parts : splitAt separator rest with
        | nil => exact absurd parts (splitAt_ne_nil separator rest)
        | cons first others =>
            rw [parts] at ih
            cases others with
            | nil => simpa using ih
            | cons second more => simpa [List.intercalate_cons_cons] using ih

theorem splitAt_of_not_mem {separator : Char} {text : List Char} (absent : separator ∉ text) :
    splitAt separator text = [text] := by
  induction text with
  | nil => exact splitAt_nil separator
  | cons c rest ih =>
      rw [List.mem_cons, not_or] at absent
      rw [splitAt, if_neg (Ne.symm absent.1), ih absent.2]

theorem splitAt_append {separator : Char} {first : List Char} (absent : separator ∉ first)
    (rest : List Char) :
    splitAt separator (first ++ separator :: rest) = first :: splitAt separator rest := by
  induction first with
  | nil => rw [List.nil_append, splitAt, if_pos rfl]
  | cons c more ih =>
      rw [List.mem_cons, not_or] at absent
      rw [List.cons_append, splitAt, if_neg (Ne.symm absent.1), ih absent.2]

/-- A text that starts with a visible character. -/
def StartsVisibly (text : List Char) : Prop :=
  ∃ c rest, text = c :: rest ∧ isBlank c = false

theorem StartsVisibly.append {text : List Char} (starts : StartsVisibly text) (more : List Char) :
    StartsVisibly (text ++ more) := by
  obtain ⟨c, rest, rfl, visible⟩ := starts
  exact ⟨c, rest ++ more, rfl, visible⟩

theorem StartsVisibly.dropWhile {text : List Char} (starts : StartsVisibly text) :
    text.dropWhile isBlank = text := by
  obtain ⟨c, rest, rfl, visible⟩ := starts
  exact List.dropWhile_cons_of_neg (by simp [visible])

theorem startsVisibly_of_forall {text : List Char} (nonempty : text ≠ [])
    (visible : ∀ c ∈ text, isBlank c = false) : StartsVisibly text := by
  obtain ⟨c, rest, rfl⟩ := List.exists_cons_of_ne_nil nonempty
  exact ⟨c, rest, rfl, visible c List.mem_cons_self⟩

theorem startsVisibly_dropWhile {text : List Char} (nonempty : text.dropWhile isBlank ≠ []) :
    StartsVisibly (text.dropWhile isBlank) :=
  ⟨_, _, (List.cons_head_tail nonempty).symm, List.head_dropWhile_not isBlank nonempty⟩

/-- A text without a blank at either end, which is not empty. -/
structure Trimmed (text : String) : Prop where
  starts : StartsVisibly text.toList
  ends : StartsVisibly text.toList.reverse

theorem Trimmed.ne_empty {text : String} (trimmed : Trimmed text) : text ≠ "" := by
  rintro rfl
  obtain ⟨_, _, chars, _⟩ := trimmed.starts
  cases chars

theorem Trimmed.trim_eq {text : String} (trimmed : Trimmed text) : trim text = text := by
  rw [trim, trimBoth, trimmed.starts.dropWhile, trimmed.ends.dropWhile, List.reverse_reverse,
    String.ofList_toList]

/-- A text is trimmed if it has visible characters in front and at the end. -/
theorem trimmed_between {first last : String} (starts : StartsVisibly first.toList)
    (ends : StartsVisibly last.toList.reverse) (middle : String) :
    Trimmed (first ++ middle ++ last) := by
  constructor
  · rw [String.append_assoc, String.toList_append]
    exact starts.append _
  · rw [String.toList_append, List.reverse_append]
    exact ends.append _

/-- What is left of a text between its blanks is trimmed. -/
theorem trimmed_trim {text : String} (nonempty : trim text ≠ "") : Trimmed (trim text) := by
  have chars : (trim text).toList =
      ((text.toList.dropWhile isBlank).reverse.dropWhile isBlank).reverse := by
    rw [trim, trimBoth, String.toList_ofList]
  have some : (trim text).toList ≠ [] := by simpa using nonempty
  constructor
  · -- the kept characters are the first ones of those behind the leading blanks
    have suffix := List.dropWhile_suffix isBlank (l := (text.toList.dropWhile isBlank).reverse)
    obtain ⟨dropped, whole⟩ := suffix
    have whole := congrArg List.reverse whole
    rw [List.reverse_append, List.reverse_reverse, ← chars] at whole
    obtain ⟨c, rest, kept⟩ := List.exists_cons_of_ne_nil some
    have body : StartsVisibly (text.toList.dropWhile isBlank) := by
      refine startsVisibly_dropWhile ?_
      rw [← whole, kept]
      simp
    rw [← whole, kept] at body
    obtain ⟨_, _, same, visible⟩ := body
    cases same
    exact ⟨_, rest, kept, visible⟩
  · rw [chars, List.reverse_reverse]
    rw [chars, ne_eq, List.reverse_eq_nil_iff] at some
    exact startsVisibly_dropWhile some

end Scim.Text
