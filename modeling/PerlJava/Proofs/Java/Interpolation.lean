import PerlJava.Proofs.Data.ExceptFold
import PerlJava.Proofs.Java.LiteralText
import PerlJava.Proofs.Regex.AdmittedText

/-!
# Variables in literals

A variable is mentioned by a dollar sign and its name. No character of a mention belongs to an escape
or to an operand, so an operand may be put in its place, and what stands between the outer quotes
still consists of parts that fit.
-/

namespace PerlJava.Java.Literal

/-- What may stand between the outer quotes of a literal with operands. -/
def Spliced (text : List Char) : Prop :=
  ∃ parts, text = written parts ∧ ∀ p ∈ parts, p.Fits

theorem Spliced.concatenation {text : List Char} (spliced : Spliced text) :
    Concatenation ('"' :: (text ++ ['"'])) := by
  obtain ⟨parts, rfl, fits⟩ := spliced
  exact concatenation_of_fits fits

theorem eq_char_of_written {parts : List Part} {c : Char} {rest : List Char}
    (same : written parts = c :: rest) (quote : c ≠ '"') (backslash : c ≠ '\\') :
    ∃ others, parts = .char c :: others ∧ written others = rest := by
  cases parts with
  | nil => cases same
  | cons p others =>
    cases p with
    | char d =>
      obtain ⟨rfl, rfl⟩ := List.cons.inj same
      exact ⟨others, rfl, rfl⟩
    | escape d => exact absurd (List.cons.inj same).1.symm backslash
    | operand text => exact absurd (List.cons.inj same).1.symm quote

theorem eq_chars_of_written {parts : List Part} {name rest : List Char}
    (same : written parts = name ++ rest) (word : ∀ c ∈ name, Text.isAsciiWord c = true) :
    ∃ others, parts = name.map .char ++ others ∧ written others = rest := by
  induction name generalizing parts with
  | nil => exact ⟨parts, rfl, same⟩
  | cons c name ih =>
    simp only [List.forall_mem_cons] at word
    obtain ⟨others, rfl, after⟩ := eq_char_of_written same (ne_of_isAsciiWord word.1 (by decide))
      (ne_of_isAsciiWord word.1 (by decide))
    obtain ⟨others, rfl, rest⟩ := ih after word.2
    exact ⟨others, rfl, rest⟩

theorem Part.Fits.dollar_notMem {p : Part} (fits : p.Fits) (other : p ≠ .char '$') :
    '$' ∉ p.text := by
  have notWord {text : List Char} (word : ∀ c ∈ text, Text.isAsciiWord c = true) : '$' ∉ text :=
    fun member => ne_of_isAsciiWord (word _ member) (by decide) rfl
  cases p with
  | char c =>
    intro member
    obtain rfl : '$' = c := by simpa [Part.text] using member
    exact other rfl
  | escape c =>
    intro member
    obtain rfl : '$' = c := by simpa [Part.text] using member
    cases fits
  | operand text =>
    have inside : '$' ∉ text := by
      obtain name | ⟨body, rfl, word⟩ := fits
      · exact notWord name.isAsciiWord
      · simpa using notWord word
    simpa [Part.text] using inside

/-! ## Replacing mentions -/

section Replace

open Text

variable {sought by_ text rest : List Char} {limit : Nat}

theorem eq_append_of_dropStart? (found : (dropStart? sought text).isSome = true) :
    ∃ rest, text = sought ++ rest := by
  induction sought generalizing text with
  | nil => exact ⟨text, rfl⟩
  | cons c sought ih =>
    cases text with
    | nil => cases found
    | cons d text =>
      rw [dropStart?] at found
      split at found
      · next same =>
        obtain ⟨rest, rfl⟩ := ih found
        exact ⟨rest, by rw [same, List.cons_append]⟩
      · cases found

theorem replaceList_zero (text : List Char) : replaceList sought by_ 0 0 text = text := by
  cases text <;> rfl

theorem replaceList_skip (skipped text : List Char) :
    replaceList sought by_ limit skipped.length (skipped ++ text)
      = replaceList sought by_ limit 0 text := by
  induction skipped with
  | nil => rfl
  | cons c skipped ih => simpa [replaceList] using ih

/-- What does not have the first character of the text sought in it stays as it is. -/
theorem replaceList_append {c : Char} (free : c ∉ text) :
    replaceList (c :: sought) by_ limit 0 (text ++ rest)
      = text ++ replaceList (c :: sought) by_ limit 0 rest := by
  induction text with
  | nil => rfl
  | cons d text ih =>
    simp only [List.mem_cons, not_or] at free
    cases limit with
    | zero => simp only [replaceList_zero]
    | succ limit => simp [replaceList, dropStart?, free.1, ih free.2]

end Replace

/-- Replacing the mentions of a variable by an operand gives the same parts, but for some dollar signs
and names that have become operands. -/
theorem replaceList_written {parts : List Part} {name : List Char} (operand : List Char)
    (fits : ∀ p ∈ parts, p.Fits) (word : ∀ c ∈ name, Text.isAsciiWord c = true) (limit : Nat) :
    ∃ parts', Text.replaceList ('$' :: name) (Part.operand operand).text limit 0 (written parts)
        = written parts'
      ∧ ∀ p ∈ parts', p ∈ parts ∨ p = .operand operand := by
  -- A mention takes up several parts, so the induction is on their number.
  induction size : parts.length using Nat.strongRecOn generalizing parts limit with
  | ind n ih =>
    subst size
    have onwards (others : List Part) (later : others.length < parts.length)
        (among : ∀ p ∈ others, p ∈ parts) (limit : Nat) :=
      ih others.length later (fun p member => fits p (among p member)) limit rfl
    cases parts with
    | nil => exact ⟨[], by cases limit <;> rfl, by simp⟩
    | cons p parts =>
      obtain ⟨kept, same, sources⟩ := onwards parts (by simp) (by simp +contextual) limit
      have keep (same : Text.replaceList ('$' :: name) (Part.operand operand).text limit 0
          (written (p :: parts)) = p.text ++ written kept) :
          ∃ parts', Text.replaceList ('$' :: name) (Part.operand operand).text limit 0
              (written (p :: parts)) = written parts'
            ∧ ∀ q ∈ parts', q ∈ p :: parts ∨ q = .operand operand := by
        refine ⟨p :: kept, by rw [same, written_cons], ?_⟩
        simp only [List.forall_mem_cons, List.mem_cons_self, true_or, true_and]
        exact fun q member => (sources q member).imp_left (List.mem_cons_of_mem _)
      by_cases dollar : p = .char '$'
      · subst dollar
        cases limit with
        | zero => exact ⟨.char '$' :: parts, replaceList_zero _, fun q member => .inl member⟩
        | succ limit =>
          rw [written_cons, show (Part.char '$').text = ['$'] from rfl, List.singleton_append,
            Text.replaceList] at keep ⊢
          split
          · next found =>
            obtain ⟨rest, mention⟩ := eq_append_of_dropStart? found
            obtain ⟨others, rfl, -⟩ := eq_chars_of_written (List.cons.inj mention).2 word
            have fewer : others.length < (.char '$' :: (name.map Part.char ++ others)).length := by
              simp only [List.length_cons, List.length_append]
              omega
            obtain ⟨changed, same', sources'⟩ :=
              onwards others fewer (fun q member => by simp [member]) limit
            refine ⟨.operand operand :: changed, ?_, ?_⟩
            · rw [written_append, written_cons, ← same', ← replaceList_skip name]
              simp [written, Part.text, List.flatMap_map]
            · simp only [List.forall_mem_cons, or_true, true_and]
              exact fun q member => (sources' q member).imp_left fun member => by simp [member]
          · next missing =>
            rw [if_neg missing] at keep
            exact keep (by rw [same, List.singleton_append])
      · have free := (fits p List.mem_cons_self).dollar_notMem dollar
        exact keep (by rw [written_cons, replaceList_append free, same])

theorem Spliced.replaceAll {text mention insert : String} {name operand : List Char}
    (spliced : Spliced text.toList) (sought : mention.toList = '$' :: name)
    (word : ∀ c ∈ name, Text.isAsciiWord c = true) (inserted : insert.toList = (Part.operand operand).text)
    (fits : (Part.operand operand).Fits) : Spliced (Text.replaceAll text mention insert).toList := by
  obtain ⟨parts, same, all⟩ := spliced
  obtain ⟨parts', replaced, sources⟩ := replaceList_written operand all word text.length
  refine ⟨parts', by simp [Text.replaceAll, same, sought, inserted, replaced], fun p member => ?_⟩
  obtain member | rfl := sources p member
  · exact all p member
  · exact fits

/-! ## Mentions -/

theorem isName_of_nameRegex {text : List Char} (admits : nameRegex.Admits text) : IsName text := by
  obtain ⟨first, others, rfl, one, more⟩ := admits.of_append
  obtain ⟨c, rfl, letter⟩ := one.of_one
  obtain ⟨ts, rfl, all⟩ := more.of_many
  refine ⟨?_, fun d member => ?_⟩
  · simpa [CharSet.contains, ClassItem.contains, Text.isAsciiLetter, or_assoc] using letter
  · obtain ⟨t, found, within⟩ := List.mem_flatten.1 member
    obtain ⟨e, rfl, part⟩ := (all t found).of_one
    obtain rfl := List.mem_singleton.1 within
    simp only [CharSet.contains, ClassItem.contains, List.any_cons, List.any_nil, Bool.or_false] at part
    simp only [Text.isAsciiWord, Text.isAsciiLetter, Text.isAsciiDigit]
    grind

theorem mention_of_mem {text mention : String}
    (member : mention ∈ occurrences (.char '$' ++ nameRegex) text) :
    ∃ name, mention = String.ofList ('$' :: name) ∧ IsName name := by
  obtain ⟨⟨start, p⟩, found, rfl⟩ := List.mem_map.1 member
  obtain ⟨sign, name, same, one, admits⟩ := (Regex.admits_of_mem_matchesIn found).of_append
  obtain rfl := one.eq_of_char
  exact ⟨name, by simp [same], isName_of_nameRegex admits⟩

theorem spliced_interpolateNames {typeOf? : String → Option Shape} {text result : String}
    {names : List String} (mentions : ∀ m ∈ names, ∃ name, m = String.ofList ('$' :: name) ∧ IsName name)
    (spliced : Spliced text.toList) (done : interpolateNames typeOf? text names = .ok result) :
    Spliced result.toList := by
  refine foldlM_invariant (P := fun text => Spliced text.toList) spliced ?_ done
  intro text m text' member spliced done
  obtain ⟨name, rfl, named⟩ := mentions m member
  have slice : Text.sliceFrom (String.ofList ('$' :: name)) 1 = String.ofList name := by
    simp only [Text.sliceFrom, Text.clampBound, String.toList_ofList, String.length_ofList,
      List.length_cons]
    simp
  simp only [slice] at done
  split at done
  · obtain ⟨size, -, done⟩ := bind_eq_ok.1 done
    split at done
    · cases done
      exact spliced.replaceAll (by simp) named.isAsciiWord (by simp [Part.text]) (.inl named)
    · cases done
      exact spliced
  · cases done
    exact spliced

/-- The inner part of a mention has only characters of the name. -/
theorem isAsciiWord_of_mem_slice {name : List Char} (named : IsName name) :
    ∀ c ∈ (Text.slice (String.ofList ('$' :: name)) 2 (-1)).toList, Text.isAsciiWord c = true := by
  intro c member
  cases name with
  | nil => cases named
  | cons d name =>
    have start : Text.clampBound (name.length + 2) 2 = 2 := by simp [Text.clampBound]
    simp only [Text.slice, Text.sliceList, String.toList_ofList, List.length_cons, start,
      List.drop_take] at member
    exact named.isAsciiWord c (List.mem_cons_of_mem _ (List.mem_of_mem_take member))

theorem spliced_interpolate {typeOf? : String → Option Shape} {text result : String}
    (spliced : Spliced text.toList) (done : interpolate typeOf? text = .ok result) :
    Spliced result.toList := by
  obtain ⟨middle, first, done⟩ := bind_eq_ok.1 done
  have spliced := spliced_interpolateNames (fun m member => mention_of_mem member) spliced first
  refine foldlM_invariant (P := fun text => Spliced text.toList) spliced ?_ done
  intro text _ text' _ spliced done
  split at done
  · cases done
  · next mention last =>
    obtain ⟨name, rfl, named⟩ := mention_of_mem (List.mem_of_getLast? last)
    simp only at done
    split at done
    · cases done
    · obtain ⟨size, -, done⟩ := bind_eq_ok.1 done
      split at done
      · cases done
        refine spliced.replaceAll (by simp) named.isAsciiWord (by simp [Part.text])
          (.inr ⟨_, rfl, isAsciiWord_of_mem_slice named⟩)
      · cases done
        exact spliced

end PerlJava.Java.Literal
