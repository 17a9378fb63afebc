/-
CommandShell.Proofs.Alias.Groups — which words make up one operand.

The operands of the command that defines and shows aliases are written by
groups of neighbouring words. §1 says on its own terms when a group is complete
(`Complete`), how words are cut into such groups (`Cut`), and which operand a
group writes (`Writes`). A group goes on until it is complete, so there is just
one way to cut words: §2 shows that there is one, and no other. §3 goes through
the words of a group as they are read. Behind a complete group the reading
starts anew (`ofWords_append_of_complete`), and from that follow both the
operands of words that are cut into groups and those of words that are put
together (`operands_of_groups`).
-/
import CommandShell.Proofs.Alias.Definition
import CommandShell.Proofs.Alias.Turns

namespace CommandShell.AliasOperand

/-! ## §1 Groups -/

/-- The word gives a value to a name, which stands in front of the first equals
sign. -/
structure Defines (word name value : String) : Prop where
  isName : IsName name
  word_eq : word = name ++ "=" ++ value

/-- The word gives a value to a name that begins with a quote. -/
structure Quotes (word name : String) (quote : Char) (value : String) : Prop
    extends Defines word name value where
  quote_eq : quote = '\'' ∨ quote = '"'
  head : value.toList.head? = some quote

/-- The text of a value and the words that follow, a space between each two. -/
def joined (value : String) (more : List String) : String :=
  " ".intercalate (value :: more)

/-- A text that begins with the quote is closed by it: it ends in the quote
too, and in another one than it begins with. -/
structure Closed (quote : Char) (text : String) : Prop where
  two_le : 2 ≤ text.toList.length
  last : text.toList.getLast? = some quote

/-- The words are all that an operand needs: a word that begins no quoted value,
or one that does and the words behind it that close the value. -/
inductive Complete : List String → Prop
  | single {word : String} (h : ∀ name quote value, ¬ Quotes word name quote value) :
      Complete [word]
  | closed {word name value : String} {quote : Char} {more : List String}
      (h : Quotes word name quote value) (hclosed : Closed quote (joined value more)) :
      Complete (word :: more)

/-- The words are cut into groups. A group goes to the first word at which it is
complete; only the last one need not be. -/
structure Cut (words : List String) (groups : List (List String)) : Prop where
  flatten : groups.flatten = words
  ne_nil : ∀ group ∈ groups, group ≠ []
  complete : ∀ group ∈ groups.dropLast, Complete group
  first : ∀ group ∈ groups, ∀ fewer, fewer <+: group → fewer ≠ group → ¬ Complete fewer

/-- The operand that a group of words writes. A quoted value loses its first
quote, and the last one where it is closed. -/
inductive Writes : List String → AliasOperand → Prop
  | lookup {word : String} (h : ∀ name value, ¬ Defines word name value) :
      Writes [word] (.lookup word)
  | plain {word name value : String} (h : Defines word name value)
      (hquote : ∀ quote, ¬ Quotes word name quote value) : Writes [word] (.define name value)
  | closed {word name value : String} {quote : Char} {more : List String}
      (h : Quotes word name quote value) (hclosed : Closed quote (joined value more)) :
      Writes (word :: more)
        (.define name (String.ofList (joined value more).toList.tail.dropLast))
  | unclosed {word name value : String} {quote : Char} {more : List String}
      (h : Quotes word name quote value) (hopen : ¬ Closed quote (joined value more)) :
      Writes (word :: more) (.define name (String.ofList (joined value more).toList.tail))

variable {word name value : String} {quote : Char} {more rest group words : List String}
variable {groups : List (List String)} {operand : AliasOperand} {operands : List AliasOperand}

theorem joined_nil (value : String) : joined value [] = value := by
  simp [joined]

/-- A word that is joined to the text may as well stand in it already. -/
theorem joined_cons (value word : String) (more : List String) :
    joined value (word :: more) = joined (value ++ " " ++ word) more := by
  rw [joined, joined, String.intercalate_cons_cons]
  cases more with
  | nil => simp
  | cons next more =>
    rw [String.intercalate_cons_cons, String.intercalate_cons_cons]
    simp only [String.append_assoc]

theorem Defines.unique {name' value' : String} (h : Defines word name value)
    (h' : Defines word name' value') : name' = name ∧ value' = value := by
  have hcut := Text.cutAt_append h.isName.2 value.toList
  have hcut' := Text.cutAt_append h'.isName.2 value'.toList
  have heq := congrArg String.toList (h.word_eq.symm.trans h'.word_eq)
  have hsame : name.toList ++ '=' :: value.toList = name'.toList ++ '=' :: value'.toList := by
    simpa using heq
  rw [hsame, hcut'] at hcut
  simpa [String.toList_inj] using hcut

theorem Quotes.unique {name' value' : String} {quote' : Char} (h : Quotes word name quote value)
    (h' : Quotes word name' quote' value') : name' = name ∧ quote' = quote ∧ value' = value := by
  obtain ⟨hname, rfl⟩ := h.toDefines.unique h'.toDefines
  have hquote := h'.head.symm.trans h.head
  exact ⟨hname, Option.some.inj hquote, rfl⟩

/-- A group that begins a quoted value is complete where the value is closed. -/
theorem Quotes.complete_iff (h : Quotes word name quote value) :
    Complete (word :: more) ↔ Closed quote (joined value more) := by
  constructor
  · intro hcomplete
    cases hcomplete with
    | single hnone => exact absurd h (hnone name quote value)
    | closed h' hclosed =>
      obtain ⟨-, rfl, rfl⟩ := h.unique h'
      exact hclosed
  · exact .closed h

/-- Every group of words writes an operand, if it holds no more words than it
needs. -/
theorem exists_writes (hne : group ≠ [])
    (hfirst : ∀ fewer, fewer <+: group → fewer ≠ group → ¬ Complete fewer) :
    ∃ operand, Writes group operand := by
  obtain ⟨word, more, rfl⟩ := List.exists_cons_of_ne_nil hne
  by_cases hquotes : ∃ name quote value, Quotes word name quote value
  · obtain ⟨name, quote, value, h⟩ := hquotes
    by_cases hclosed : Closed quote (joined value more)
    · exact ⟨_, .closed h hclosed⟩
    · exact ⟨_, .unclosed h hclosed⟩
  · have hnone : ∀ name quote value, ¬ Quotes word name quote value := by simpa using hquotes
    obtain rfl : more = [] := by
      by_contra hmore
      exact hfirst [word] (by simp) (by simpa [eq_comm] using hmore) (.single hnone)
    by_cases hdefines : ∃ name value, Defines word name value
    · obtain ⟨name, value, h⟩ := hdefines
      exact ⟨_, .plain h fun quote => hnone name quote value⟩
    · exact ⟨_, .lookup (by simpa using hdefines)⟩

/-! ## §2 Cutting words -/

/-- Of the prefixes with a property there is a shortest one, if there are any. -/
theorem exists_shortest_prefix (p : List String → Prop) (words : List String) :
    (∃ more rest, words = more ++ rest ∧ p more ∧
      ∀ fewer, fewer <+: more → fewer ≠ more → ¬ p fewer) ∨
    ∀ fewer, fewer <+: words → ¬ p fewer := by
  induction words generalizing p with
  | nil =>
    by_cases hnil : p []
    · exact .inl ⟨[], [], rfl, hnil, by simp⟩
    · exact .inr (by simpa using hnil)
  | cons word words ih =>
    by_cases hnil : p []
    · exact .inl ⟨[], word :: words, rfl, hnil, by simp⟩
    · have hcons : ∀ more, (∀ fewer, fewer <+: more → fewer ≠ more → ¬ p (word :: fewer)) →
          ∀ fewer, fewer <+: word :: more → fewer ≠ word :: more → ¬ p fewer := by
        intro more h fewer hinitial hne
        rcases List.prefix_cons_iff.mp hinitial with rfl | ⟨fewer, rfl, hrest⟩
        · exact hnil
        · exact h fewer hrest (by simpa using hne)
      rcases ih fun more => p (word :: more) with ⟨more, rest, rfl, hmore, hfirst⟩ | hnone
      · exact .inl ⟨word :: more, rest, rfl, hmore, hcons more hfirst⟩
      · refine .inr fun fewer hinitial => ?_
        rcases List.prefix_cons_iff.mp hinitial with rfl | ⟨fewer, rfl, hrest⟩
        · exact hnil
        · exact hnone fewer hrest

theorem not_complete_nil : ¬ Complete [] := by
  rintro ⟨⟩

theorem exists_cut (words : List String) : ∃ groups, Cut words groups := by
  induction hlength : words.length using Nat.strong_induction_on generalizing words with
  | _ length ih =>
    by_cases hne : words = []
    · exact ⟨[], by simp [hne], by simp, by simp, by simp⟩
    rcases exists_shortest_prefix Complete words with ⟨group, rest, rfl, hgroup, hfirst⟩ | hnone
    · have hgroup_ne : group ≠ [] := by
        rintro rfl
        exact not_complete_nil hgroup
      have hshorter : rest.length < length := by
        have := List.length_pos_iff.mpr hgroup_ne
        rw [List.length_append] at hlength
        omega
      obtain ⟨groups, hcut⟩ := ih rest.length hshorter rest rfl
      refine ⟨group :: groups, by simp [hcut.flatten], ?_, ?_, ?_⟩
      · simpa using ⟨hgroup_ne, hcut.ne_nil⟩
      · intro other hother
        cases groups with
        | nil => cases hother
        | cons next groups =>
          rcases List.mem_cons.mp hother with rfl | hother
          · exact hgroup
          · exact hcut.complete other hother
      · intro other hother
        rcases List.mem_cons.mp hother with rfl | hother
        · exact hfirst
        · exact hcut.first other hother
    · exact ⟨[words], by simp, by simpa using hne, by simp, fun group hgroup fewer hinitial _ => by
        obtain rfl := List.mem_singleton.mp hgroup
        exact hnone fewer hinitial⟩

theorem Cut.tail (h : Cut words (group :: groups)) : Cut groups.flatten groups where
  flatten := rfl
  ne_nil other hother := h.ne_nil other (List.mem_cons_of_mem group hother)
  complete other hother := by
    refine h.complete other ?_
    cases groups with
    | nil => cases hother
    | cons next groups => exact List.mem_cons_of_mem group hother
  first other hother := h.first other (List.mem_cons_of_mem group hother)

/-- Two groups at the beginning of the same words are the same. -/
theorem Cut.head_eq {other : List String} {others : List (List String)}
    (h : Cut words (group :: groups)) (h' : Cut words (other :: others))
    (hinitial : group <+: other) : group = other := by
  by_contra hne
  have hincomplete := h'.first other List.mem_cons_self group hinitial hne
  -- A group that is not complete is the last one, and leaves no words for a longer one.
  cases groups with
  | cons next groups => exact hincomplete (h.complete group List.mem_cons_self)
  | nil =>
    have hwords : group = words := by simpa using h.flatten
    have hother : other <+: words := h'.flatten ▸ List.prefix_append other others.flatten
    rw [← hwords] at hother
    exact hne (hinitial.eq_of_length_le hother.length_le)

/-- Words are cut into groups in one way only. -/
theorem Cut.unique {others : List (List String)} (h : Cut words groups) (h' : Cut words others) :
    groups = others := by
  induction groups generalizing words others with
  | nil =>
    cases others with
    | nil => rfl
    | cons other others =>
      have hnil : other ++ others.flatten = [] := by simpa [← h.flatten] using h'.flatten
      exact absurd (List.append_eq_nil_iff.mp hnil).1 (h'.ne_nil other List.mem_cons_self)
  | cons group groups ih =>
    cases others with
    | nil =>
      have hnil : group ++ groups.flatten = [] := by simpa [← h'.flatten] using h.flatten
      exact absurd (List.append_eq_nil_iff.mp hnil).1 (h.ne_nil group List.mem_cons_self)
    | cons other others =>
      have hgroup : group <+: words := h.flatten ▸ List.prefix_append group groups.flatten
      have hother : other <+: words := h'.flatten ▸ List.prefix_append other others.flatten
      obtain rfl : group = other := by
        rcases List.prefix_or_prefix_of_prefix hgroup hother with hinitial | hinitial
        · exact h.head_eq h' hinitial
        · exact (h'.head_eq h hinitial).symm
      have hrest : groups.flatten = others.flatten := by
        have hboth := h.flatten.trans h'.flatten.symm
        simpa using hboth
      rw [ih h.tail (hrest ▸ h'.tail)]

/-! ## §3 Reading groups -/

theorem closes_iff {text : String} : closes quote text.toList = true ↔ Closed quote text := by
  rw [closes, Bool.and_eq_true, decide_eq_true_iff, beq_iff_eq]
  exact ⟨fun h => ⟨h.1, h.2⟩, fun h => ⟨h.two_le, h.last⟩⟩

theorem unquote_of_closed {text : String} (h : Closed quote text) :
    unquote quote text.toList = String.ofList text.toList.tail.dropLast := by
  rw [unquote, if_pos (closes_iff.mpr h)]

theorem unquote_of_not_closed {text : String} (h : ¬ Closed quote text) :
    unquote quote text.toList = String.ofList text.toList.tail := by
  rw [unquote, if_neg (closes_iff.not.mpr h)]

theorem Defines.cutAt_eq (h : Defines word name value) :
    Text.cutAt '=' word.toList = some (name.toList, value.toList) := by
  have hword : word.toList = name.toList ++ '=' :: value.toList := by simp [h.word_eq]
  rw [hword, Text.cutAt_append h.isName.2]

theorem begin_of_not_defines (h : ∀ name value, ¬ Defines word name value) :
    begin word = .inl (.lookup word) := by
  rw [begin]
  cases hcut : Text.cutAt '=' word.toList with
  | none => rfl
  | some parts =>
    obtain ⟨name, value⟩ := parts
    cases name with
    | nil => rfl
    | cons c name =>
      have hname : IsName (String.ofList (c :: name)) := isName_of_cutAt hcut (by simp)
      have hword : word = String.ofList (c :: name) ++ "=" ++ String.ofList value := by
        rw [← String.toList_inj, (Text.cutAt_eq_some hcut).1]
        simp
      exact absurd ⟨hname, hword⟩ (h _ _)

theorem begin_of_plain (h : Defines word name value)
    (hquote : ∀ quote, ¬ Quotes word name quote value) :
    begin word = .inl (.define name value) := by
  have hname : name.toList ≠ [] := by simpa using h.isName.1
  obtain ⟨c, chars, hchars⟩ := List.exists_cons_of_ne_nil hname
  have hofList : String.ofList (c :: chars) = name := by rw [← hchars, String.ofList_toList]
  rw [begin, h.cutAt_eq, hchars]
  cases hvalue : value.toList with
  | nil =>
    obtain rfl : value = "" := by simpa using hvalue
    simp only [hofList]
  | cons first more =>
    have hplain : ¬ (first = '\'' ∨ first = '"') := fun hfirst =>
      hquote first ⟨h, hfirst, by rw [hvalue]; rfl⟩
    have hrest : String.ofList (first :: more) = value := by rw [← hvalue, String.ofList_toList]
    simp only [hofList, hrest, if_neg hplain]

theorem begin_of_quotes (h : Quotes word name quote value) :
    begin word =
      if closes quote value.toList then .inl (.define name (unquote quote value.toList))
      else .inr ⟨name, quote, value.toList⟩ := by
  obtain ⟨rest, hvalue⟩ := List.head?_eq_some_iff.mp h.head
  rw [hvalue]
  refine begin_quoted h.quote_eq h.isName.1 h.isName.2 ?_
  simp [h.word_eq, hvalue]

/-- A value that is under way is closed by the first words that close it. -/
theorem ofWordsFrom_of_closed (hne : more ≠ []) (hclosed : Closed quote (joined value more))
    (hfirst : ∀ fewer, fewer <+: more → fewer ≠ more → ¬ Closed quote (joined value fewer)) :
    ofWordsFrom (some ⟨name, quote, value.toList⟩) (more ++ rest) =
      .define name (String.ofList (joined value more).toList.tail.dropLast) ::
        ofWordsFrom none rest := by
  induction more generalizing value with
  | nil => exact absurd rfl hne
  | cons word more ih =>
    have htext : value.toList ++ ' ' :: word.toList = (value ++ " " ++ word).toList := by simp
    rw [List.cons_append, ofWordsFrom]
    simp only [htext]
    rw [joined_cons] at hclosed ⊢
    cases more with
    | nil =>
      rw [joined_nil] at hclosed ⊢
      rw [if_pos (closes_iff.mpr hclosed), unquote_of_closed hclosed, List.nil_append]
    | cons next more =>
      have hopen : ¬ Closed quote (value ++ " " ++ word) := by
        have hword := hfirst [word] (by simp) (by simp)
        rwa [joined_cons, joined_nil] at hword
      rw [if_neg (closes_iff.not.mpr hopen)]
      refine ih (by simp) hclosed fun fewer hinitial hother => ?_
      have hword := hfirst (word :: fewer) (by simpa using hinitial) (by simpa using hother)
      rwa [joined_cons] at hword

/-- A value that is under way and that no words close holds all of them. -/
theorem ofWordsFrom_of_not_closed
    (hopen : ∀ fewer, fewer <+: more → ¬ Closed quote (joined value fewer)) :
    ofWordsFrom (some ⟨name, quote, value.toList⟩) more =
      [.define name (String.ofList (joined value more).toList.tail)] := by
  induction more generalizing value with
  | nil =>
    have hvalue : ¬ Closed quote value := joined_nil value ▸ hopen [] (List.prefix_refl [])
    rw [joined_nil, ofWordsFrom, unquote_of_not_closed hvalue]
  | cons word more ih =>
    have htext : value.toList ++ ' ' :: word.toList = (value ++ " " ++ word).toList := by simp
    have hrest : ∀ fewer, fewer <+: more → ¬ Closed quote (joined (value ++ " " ++ word) fewer) := by
      intro fewer hinitial
      rw [← joined_cons]
      exact hopen (word :: fewer) (by simpa using hinitial)
    have hword : ¬ Closed quote (value ++ " " ++ word) := by
      have hnil := hrest [] List.nil_prefix
      rwa [joined_nil] at hnil
    rw [ofWordsFrom]
    simp only [htext]
    rw [if_neg (closes_iff.not.mpr hword), ih hrest, joined_cons]

/-- Behind a complete group the reading starts anew. -/
theorem ofWords_append_of_complete (hwrites : Writes group operand) (hcomplete : Complete group)
    (hfirst : ∀ fewer, fewer <+: group → fewer ≠ group → ¬ Complete fewer) :
    ofWords (group ++ rest) = operand :: ofWords rest := by
  cases hwrites with
  | lookup h => simp [ofWords, ofWordsFrom, begin_of_not_defines h]
  | plain h hquote => simp [ofWords, ofWordsFrom, begin_of_plain h hquote]
  | unclosed h hopen => exact absurd (h.complete_iff.mp hcomplete) hopen
  | @closed word name value quote more h hclosed =>
    rw [ofWords, List.cons_append, ofWordsFrom, begin_of_quotes h]
    cases more with
    | nil =>
      rw [joined_nil] at hclosed ⊢
      rw [if_pos (closes_iff.mpr hclosed), unquote_of_closed hclosed]
      rfl
    | cons next more =>
      have hopen : ∀ fewer, fewer <+: next :: more → fewer ≠ next :: more →
          ¬ Closed quote (joined value fewer) := by
        intro fewer hinitial hne hfewer
        exact hfirst (word :: fewer) (by simpa using hinitial) (by simpa using hne)
          (.closed h hfewer)
      have hvalue : ¬ Closed quote value := joined_nil value ▸ hopen [] List.nil_prefix (by simp)
      rw [if_neg (closes_iff.not.mpr hvalue)]
      exact ofWordsFrom_of_closed (by simp) hclosed hopen

/-- A group that is not complete is read to its end. -/
theorem ofWords_of_not_complete (hwrites : Writes group operand)
    (hopen : ∀ fewer, fewer <+: group → ¬ Complete fewer) : ofWords group = [operand] := by
  have hgroup : ¬ Complete group := hopen group (List.prefix_refl group)
  cases hwrites with
  | @lookup word h =>
    exact absurd (.single fun name quote value hquotes => h name value hquotes.toDefines) hgroup
  | @plain word name value h hquote =>
    refine absurd (.single fun name' quote value' hquotes => ?_) hgroup
    obtain ⟨rfl, rfl⟩ := h.unique hquotes.toDefines
    exact hquote quote hquotes
  | closed h hclosed => exact absurd (.closed h hclosed) hgroup
  | @unclosed word name value quote more h _ =>
    have hnone : ∀ fewer, fewer <+: more → ¬ Closed quote (joined value fewer) := by
      intro fewer hinitial hfewer
      exact hopen (word :: fewer) (by simpa using hinitial) (.closed h hfewer)
    have hvalue : ¬ Closed quote value := joined_nil value ▸ hnone [] List.nil_prefix
    rw [ofWords, ofWordsFrom, begin_of_quotes h, if_neg (closes_iff.not.mpr hvalue)]
    exact ofWordsFrom_of_not_closed hnone

/-- Complete groups are read one after the other, whatever words follow. -/
theorem ofWords_flatten_append (hwrites : List.Forall₂ Writes groups operands)
    (hcomplete : ∀ group ∈ groups, Complete group)
    (hfirst : ∀ group ∈ groups, ∀ fewer, fewer <+: group → fewer ≠ group → ¬ Complete fewer) :
    ofWords (groups.flatten ++ rest) = operands ++ ofWords rest := by
  induction hwrites with
  | nil => rfl
  | @cons group operand groups operands hhead _ ih =>
    have hgroup := hcomplete group List.mem_cons_self
    have hbegin := hfirst group List.mem_cons_self
    rw [List.flatten_cons, List.append_assoc, ofWords_append_of_complete hhead hgroup hbegin,
      ih (fun other hother => hcomplete other (List.mem_cons_of_mem group hother))
        fun other hother => hfirst other (List.mem_cons_of_mem group hother)]
    rfl

/-- The operands of words are those that their groups write. -/
theorem Cut.ofWords_eq (h : Cut words groups) (hwrites : List.Forall₂ Writes groups operands) :
    ofWords words = operands := by
  induction hwrites generalizing words with
  | nil => rw [← h.flatten]; rfl
  | @cons group operand groups operands hhead htail ih =>
    have hfirst := h.first group List.mem_cons_self
    rw [← h.flatten, List.flatten_cons]
    by_cases hgroup : Complete group
    · rw [ofWords_append_of_complete hhead hgroup hfirst, ih h.tail]
    · cases htail with
      | cons _ _ => exact absurd (h.complete group List.mem_cons_self) hgroup
      | nil =>
        rw [List.flatten_nil, List.append_nil]
        refine ofWords_of_not_complete hhead fun fewer hinitial => ?_
        by_cases hfewer : fewer = group
        · exact hfewer ▸ hgroup
        · exact hfirst fewer hinitial hfewer

theorem Cut.exists_forall₂_writes (h : Cut words groups) :
    ∃ operands, List.Forall₂ Writes groups operands := by
  induction groups generalizing words with
  | nil => exact ⟨[], .nil⟩
  | cons group groups ih =>
    have hne := h.ne_nil group List.mem_cons_self
    obtain ⟨operand, hhead⟩ := exists_writes hne (h.first group List.mem_cons_self)
    obtain ⟨operands, htail⟩ := ih h.tail
    exact ⟨operand :: operands, .cons hhead htail⟩

/-- A group with more words than one begins with a quoted value. -/
theorem Cut.exists_quotes (h : Cut words groups) (hgroup : word :: more ∈ groups)
    (hmore : more ≠ []) : ∃ name quote value, Quotes word name quote value := by
  by_contra hnone
  refine h.first _ hgroup [word] (by simp) (by simpa [eq_comm] using hmore) (.single ?_)
  exact fun name quote value hquotes => hnone ⟨name, quote, value, hquotes⟩

/-- **No word is lost, used twice or moved.** Words are cut into groups in just
one way, and the groups write the operands one by one and in order. A group has
more words than one only if it begins with a quoted value. Unless the last of
them is a quoted value that nothing closes, words that follow write the operands
that they write alone. -/
theorem operands_of_groups (words : List String) :
    ∃ groups, Cut words groups ∧ (∀ other, Cut words other → other = groups) ∧
      List.Forall₂ Writes groups (ofWords words) ∧
      (∀ word more, word :: more ∈ groups → more ≠ [] →
        ∃ name quote value, Quotes word name quote value) ∧
      ((∀ group ∈ groups.getLast?, Complete group) →
        ∀ more, ofWords (words ++ more) = ofWords words ++ ofWords more) := by
  obtain ⟨groups, hcut⟩ := exists_cut words
  obtain ⟨operands, hwrites⟩ := hcut.exists_forall₂_writes
  have hoperands := hcut.ofWords_eq hwrites
  refine ⟨groups, hcut, fun other hother => hother.unique hcut, hoperands ▸ hwrites,
    fun word more => hcut.exists_quotes, fun hlast more => ?_⟩
  have hcomplete : ∀ group ∈ groups, Complete group := by
    intro group hgroup
    obtain ⟨last, hend⟩ := Option.ne_none_iff_exists'.mp
      (List.getLast?_eq_none_iff.not.mpr (List.ne_nil_of_mem hgroup))
    obtain ⟨earlier, rfl⟩ := List.getLast?_eq_some_iff.mp hend
    rcases List.mem_append.mp hgroup with hearlier | hgroup
    · exact hcut.complete group (by simpa using hearlier)
    · exact hlast group (by simpa [eq_comm] using hgroup)
  rw [hoperands, ← ofWords_flatten_append hwrites hcomplete hcut.first, hcut.flatten]

/-- A value over two words, the second of which closes it, and a look-up. -/
theorem operands_of_groups_quoted :
    Cut ["ll='ls", "-l'", "x"] [["ll='ls", "-l'"], ["x"]] ∧
      (∀ group ∈ [["ll='ls", "-l'"], ["x"]].getLast?, Complete group) ∧
      ∀ more, ofWords (["ll='ls", "-l'", "x"] ++ more) =
        [.define "ll" "ls -l", .lookup "x"] ++ ofWords more := by
  have hname : IsName "ll" := ⟨by decide, by decide⟩
  have hquotes : Quotes "ll='ls" "ll" '\'' "'ls" := ⟨⟨hname, rfl⟩, .inl rfl, by decide⟩
  have hsecond : Complete ["x"] := by
    refine .single fun name quote value h => ?_
    have hequals : '=' ∈ "x".toList := by simp [h.word_eq]
    exact absurd hequals (by decide)
  have hfirst : Complete ["ll='ls", "-l'"] := .closed hquotes ⟨by decide, by decide⟩
  have hopen : ¬ Complete ["ll='ls"] := fun h =>
    absurd (hquotes.complete_iff.mp h).last (by decide)
  have hcut : Cut ["ll='ls", "-l'", "x"] [["ll='ls", "-l'"], ["x"]] := by
    refine ⟨rfl, by simp, by simpa using hfirst, fun group hgroup fewer hinitial hne => ?_⟩
    have hcases : group = ["ll='ls", "-l'"] ∨ group = ["x"] := by simpa using hgroup
    rcases hcases with rfl | rfl
    · have hfewer : fewer = [] ∨ fewer = ["ll='ls"] := by
        have hmem := (List.mem_inits _ _).mpr hinitial
        simpa [hne] using hmem
      rcases hfewer with rfl | rfl
      · exact not_complete_nil
      · exact hopen
    · obtain rfl : fewer = [] := by
        have hmem := (List.mem_inits _ _).mpr hinitial
        simpa [hne] using hmem
      exact not_complete_nil
  have hlast : ∀ group ∈ [["ll='ls", "-l'"], ["x"]].getLast?, Complete group := by
    simpa using hsecond
  obtain ⟨groups, -, hunique, -, -, hseam⟩ := operands_of_groups ["ll='ls", "-l'", "x"]
  obtain rfl := hunique _ hcut
  have hoperands : ofWords ["ll='ls", "-l'", "x"] = [.define "ll" "ls -l", .lookup "x"] := by
    decide
  exact ⟨hcut, hlast, fun more => hoperands ▸ hseam hlast more⟩

end CommandShell.AliasOperand
