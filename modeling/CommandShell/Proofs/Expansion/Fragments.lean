/-
CommandShell.Proofs.Expansion.Fragments — the references of a word, as one scan
from left to right reads them.

`Fragment.Reads` cuts a text into references and plain characters: dollar
signs pair up from the left and a name is as long as it can be, so what a
dollar sign means hangs on the scan up to it and not on its neighbours. Values
do not occur in it, so nothing that is substituted is read again.

§1 gives the scan and §2 what each of its steps is for `Reference.read?`. §3
ties it to `Scope.expandChars`. §4 cuts a text in two: `Fragment.EndsApart` is
the condition on the place of the cut, since a literal dollar sign or a name
before it might go on behind it. `expandWord_reads` states all of this for
words.
-/
import CommandShell.Expansion
import Mathlib.Data.List.TakeWhile

namespace CommandShell

/-- A fragment of a word: a character that stands for itself or a reference. -/
inductive Fragment
  | plain (c : Char)
  | reference (reference : Reference)
  deriving Repr, DecidableEq

namespace Fragment

/-! ## §1 The scan -/

/-- What a fragment stands for: the last status or the process id in decimal,
or the value that is found under the name, and nothing if none is. -/
def value (scope : Scope) : Fragment → List Char
  | .plain c => [c]
  | .reference .status => (toString scope.status).toList
  | .reference .processId => (toString scope.processId).toList
  | .reference (.variable name) =>
    match scope.lookup (String.ofList name) with
    | some value => value.toList
    | none => []

/-- The text after a dollar sign begins no reference. -/
def Bare (text : List Char) : Prop :=
  ∀ c ∈ text.head?, c ≠ '?' ∧ c ≠ '$' ∧ Reference.isNameStart c = false

/-- No name that ends before this text is longer than that. -/
def NameEnds (text : List Char) : Prop :=
  ∀ c ∈ text.head?, Reference.isNameChar c = false

/-- `Reads text fragments`: scanned from left to right, `text` consists of
`fragments`. Any character is plain but a dollar sign that begins a reference. -/
inductive Reads : List Char → List Fragment → Prop
  | done : Reads [] []
  | status {rest : List Char} {fragments : List Fragment} (reads : Reads rest fragments) :
      Reads ('$' :: '?' :: rest) (.reference .status :: fragments)
  | processId {rest : List Char} {fragments : List Fragment} (reads : Reads rest fragments) :
      Reads ('$' :: '$' :: rest) (.reference .processId :: fragments)
  | name {first : Char} {name rest : List Char}
      (hfirst : Reference.isNameStart first = true)
      (hname : ∀ c ∈ name, Reference.isNameChar c = true) (hends : NameEnds rest)
      {fragments : List Fragment} (reads : Reads rest fragments) :
      Reads ('$' :: first :: (name ++ rest)) (.reference (.variable (first :: name)) :: fragments)
  | plain {c : Char} {rest : List Char} (hbare : c = '$' → Bare rest) {fragments : List Fragment}
      (reads : Reads rest fragments) : Reads (c :: rest) (.plain c :: fragments)

end Fragment

/-! ## §2 Reading one reference -/

namespace Reference

/-- Neither of the two signs begins a name. -/
theorem ne_sign_of_isNameStart {c : Char} (h : isNameStart c = true) : c ≠ '?' ∧ c ≠ '$' := by
  constructor
  · rintro rfl
    exact absurd h (by decide)
  · rintro rfl
    exact absurd h (by decide)

/-- A name is read up to the first character that does not go on with it. -/
theorem read?_variable {first : Char} {name rest : List Char} (hfirst : isNameStart first = true)
    (hname : ∀ c ∈ name, isNameChar c = true) (hends : Fragment.NameEnds rest) :
    read? (first :: (name ++ rest)) = some (.variable (first :: name), rest) := by
  obtain ⟨hquestion, hdollar⟩ := ne_sign_of_isNameStart hfirst
  have htake : rest.takeWhile isNameChar = [] := by
    cases rest with
    | nil => rfl
    | cons c rest => exact List.takeWhile_cons_of_neg (by simp [hends c rfl])
  have hdrop : rest.dropWhile isNameChar = rest := by
    cases rest with
    | nil => rfl
    | cons c rest => exact List.dropWhile_cons_of_neg (by simp [hends c rfl])
  rw [read?, if_neg hquestion, if_neg hdollar, if_pos hfirst,
    List.takeWhile_append_of_pos hname, List.dropWhile_append_of_pos hname, htake, hdrop,
    List.append_nil]

theorem read?_bare {text : List Char} (h : Fragment.Bare text) : read? text = none := by
  cases text with
  | nil => rfl
  | cons c rest =>
    obtain ⟨hquestion, hdollar, hstart⟩ := h c rfl
    rw [read?, if_neg hquestion, if_neg hdollar, hstart]
    rfl

end Reference

/-! ## §3 The scan and the expansion -/

namespace Scope

theorem expandChars_reference (scope : Scope) {rest after : List Char} {reference : Reference}
    (h : Reference.read? rest = some (reference, after)) :
    scope.expandChars ('$' :: rest) = reference.value scope ++ scope.expandChars after := by
  rw [expandChars, if_pos rfl]
  split
  · next other left hread =>
    rw [h] at hread
    cases hread
    rfl
  · next hread =>
    rw [h] at hread
    cases hread

theorem expandChars_plain (scope : Scope) {c : Char} {rest : List Char}
    (h : c = '$' → Fragment.Bare rest) :
    scope.expandChars (c :: rest) = c :: scope.expandChars rest := by
  by_cases hc : c = '$'
  · rw [expandChars, if_pos hc]
    split
    · next other left hread =>
      rw [Reference.read?_bare (h hc)] at hread
      cases hread
    · rfl
  · rw [expandChars, if_neg hc]

end Scope

namespace Fragment

/-- What stands for a reference in the expansion is what it stands for. -/
theorem value_reference (scope : Scope) (reference : Reference) :
    value scope (.reference reference) = reference.value scope := by
  rcases reference with _ | _ | name
  · rfl
  · rfl
  · rw [value, Reference.value]
    cases scope.lookup (String.ofList name) <;> rfl

/-- Each fragment of a text gives way to what it stands for. -/
theorem Reads.expandChars {text : List Char} {fragments : List Fragment}
    (reads : Reads text fragments) (scope : Scope) :
    scope.expandChars text = fragments.flatMap (value scope) := by
  induction reads with
  | done => rw [Scope.expandChars, List.flatMap_nil]
  | status _ ih =>
    rw [scope.expandChars_reference rfl, ih, List.flatMap_cons, value_reference]
  | processId _ ih =>
    rw [scope.expandChars_reference rfl, ih, List.flatMap_cons, value_reference]
  | name hfirst hname hends _ ih =>
    rw [scope.expandChars_reference (Reference.read?_variable hfirst hname hends), ih,
      List.flatMap_cons, value_reference]
  | plain hbare _ ih =>
    rw [scope.expandChars_plain hbare, ih, List.flatMap_cons, value]
    rfl

/-- A name is followed by what does not go on with it. -/
theorem nameEnds_dropWhile (text : List Char) :
    NameEnds (text.dropWhile Reference.isNameChar) := by
  intro c hc
  have hnot := List.head?_dropWhile_not Reference.isNameChar text
  rw [Option.mem_def.mp hc] at hnot
  simpa using hnot

/-- Every text has its fragments. -/
theorem exists_reads : ∀ text : List Char, ∃ fragments, Reads text fragments
  | [] => ⟨[], .done⟩
  | [c] => ⟨[.plain c], .plain (fun _ d hd => by cases hd) .done⟩
  | c :: d :: rest => by
    by_cases hc : c = '$'
    · subst hc
      by_cases hquestion : d = '?'
      · subst hquestion
        obtain ⟨fragments, reads⟩ := exists_reads rest
        exact ⟨_, .status reads⟩
      · by_cases hdollar : d = '$'
        · subst hdollar
          obtain ⟨fragments, reads⟩ := exists_reads rest
          exact ⟨_, .processId reads⟩
        · by_cases hstart : Reference.isNameStart d = true
          · have hlt : (rest.dropWhile Reference.isNameChar).length < rest.length + 1 + 1 := by
              have := (List.dropWhile_sublist Reference.isNameChar (l := rest)).length_le
              omega
            obtain ⟨fragments, reads⟩ := exists_reads (rest.dropWhile Reference.isNameChar)
            have hname : ∀ c ∈ rest.takeWhile Reference.isNameChar,
                Reference.isNameChar c = true := fun c hc => List.mem_takeWhile_imp hc
            have hread := Reads.name hstart hname (nameEnds_dropWhile rest) reads
            rw [List.takeWhile_append_dropWhile] at hread
            exact ⟨_, hread⟩
          · obtain ⟨fragments, reads⟩ := exists_reads (d :: rest)
            refine ⟨_, .plain (fun _ e he => ?_) reads⟩
            obtain rfl : d = e := by simpa using he
            exact ⟨hquestion, hdollar, by simpa using hstart⟩
    · obtain ⟨fragments, reads⟩ := exists_reads (d :: rest)
      exact ⟨_, .plain (fun h => absurd h hc) reads⟩
termination_by text => text.length
decreasing_by
  all_goals simp only [List.length_cons]
  all_goals omega

/-! ## §4 Cutting a text in two -/

/-- Nothing at the end of these fragments may go on in the text behind them:
the last one is no literal dollar sign, and where it is a variable the text
does not go on with its name. -/
structure EndsApart (fragments : List Fragment) (next : List Char) : Prop where
  dollar : fragments.getLast? ≠ some (.plain '$')
  name : ∀ name, fragments.getLast? = some (.reference (.variable name)) → NameEnds next

theorem EndsApart.tail {fragment : Fragment} {fragments : List Fragment} {next : List Char}
    (h : EndsApart (fragment :: fragments) next) : EndsApart fragments next := by
  cases fragments with
  | nil => exact ⟨by simp, by simp⟩
  | cons other fragments =>
    refine ⟨fun hlast => h.dollar ?_, fun name hlast => h.name name ?_⟩
    · rwa [List.getLast?_cons_cons]
    · rwa [List.getLast?_cons_cons]

/-- What stands behind a fragment belongs to the fragments that follow it, or
else to the next text. -/
theorem Reads.head?_append {rest : List Char} {fragments : List Fragment}
    (reads : Reads rest fragments) (next : List Char) :
    (rest ++ next).head? = rest.head? ∨ fragments = [] ∧ (rest ++ next).head? = next.head? := by
  cases reads with
  | done => exact .inr ⟨rfl, rfl⟩
  | status _ => exact .inl rfl
  | processId _ => exact .inl rfl
  | name _ _ _ _ => exact .inl rfl
  | plain _ _ => exact .inl rfl

/-- Texts are read one after the other if the first ends apart. -/
theorem Reads.append {text next : List Char} {fragments others : List Fragment}
    (reads : Reads text fragments) (hnext : Reads next others) (h : EndsApart fragments next) :
    Reads (text ++ next) (fragments ++ others) := by
  induction reads with
  | done => exact hnext
  | status _ ih => exact .status (ih h.tail)
  | processId _ ih => exact .processId (ih h.tail)
  | @name first name rest hfirst hname hends _ reads ih =>
    have hrest : NameEnds (rest ++ next) := by
      intro c hc
      rcases reads.head?_append next with hhead | ⟨rfl, hhead⟩
      · exact hends c (hhead ▸ hc)
      · exact h.name _ rfl c (hhead ▸ hc)
    have hread := Reads.name hfirst hname hrest (ih h.tail)
    rwa [← List.append_assoc] at hread
  | @plain c rest hbare _ reads ih =>
    refine .plain (fun hc => ?_) (ih h.tail)
    intro d hd
    rcases reads.head?_append next with hhead | ⟨rfl, hhead⟩
    · exact hbare hc d (hhead ▸ hd)
    · exact absurd (by rw [hc]; rfl) h.dollar

end Fragment

namespace Scope

open Fragment (Reads EndsApart)

/-- **References.** A word is expanded by one scan from left to right, each of
its fragments giving way to what it stands for. So two texts are expanded apart
wherever the first ends apart from the second, and the words of a command
keep their number and order whatever they come to. -/
theorem expandWord_reads (scope : Scope) :
    (∀ word out, scope.expandWord word = out ↔
        ∃ fragments, Reads word.toList fragments ∧
          out.toList = fragments.flatMap (Fragment.value scope)) ∧
      (∀ before after fragments, Reads before.toList fragments →
        EndsApart fragments after.toList →
          scope.expandWord (before ++ after) =
            scope.expandWord before ++ scope.expandWord after) ∧
      ∀ words, (scope.expand words).length = words.length ∧
        ∀ i : Nat, (scope.expand words)[i]? = words[i]?.map scope.expandWord := by
  refine ⟨fun word out => ⟨?_, ?_⟩, ?_, ?_⟩
  · rintro rfl
    obtain ⟨fragments, reads⟩ := Fragment.exists_reads word.toList
    exact ⟨fragments, reads, by rw [expandWord, String.toList_ofList, reads.expandChars]⟩
  · rintro ⟨fragments, reads, hout⟩
    rw [expandWord, reads.expandChars, ← hout, String.ofList_toList]
  · intro before after fragments reads h
    obtain ⟨others, hafter⟩ := Fragment.exists_reads after.toList
    have hboth := reads.append hafter h
    rw [expandWord, expandWord, expandWord, String.toList_append, hboth.expandChars,
      reads.expandChars, hafter.expandChars, List.flatMap_append, String.ofList_append]
  · intro words
    refine ⟨List.length_map _, fun i => ?_⟩
    rw [expand, List.getElem?_map]

/-- Dollar signs pair up from the left, two names stand side by side with one
that is not set, and the value of a variable is not read again, whatever stands
in it. -/
theorem expandWord_reads_dollars :
    let scope : Scope := ⟨7, 42, fun name =>
      if name = "X" then some "$$;" else if name = "Y_2" then some "$X" else none⟩
    scope.expandWord ("$$$X" ++ "-$?") = "42$$;" ++ "-7" ∧ scope.expandWord "$$X" = "42X" ∧
      scope.expandWord "$Y_2$Z.$X" = "$X.$$;" := by
  intro scope
  have hends : Fragment.NameEnds [] := by simp [Fragment.NameEnds]
  have hlast : Reads ['$', 'X'] [.reference (.variable ['X'])] :=
    @Reads.name 'X' [] [] (by decide) (by simp) hends [] .done
  have hreads : Reads "$$$X".toList [.reference .processId, .reference (.variable ['X'])] := by
    have htext : "$$$X".toList = ['$', '$', '$', 'X'] := rfl
    rw [htext]
    exact .processId hlast
  have hnext : Reads "-$?".toList [.plain '-', .reference .status] := by
    have htext : "-$?".toList = ['-', '$', '?'] := rfl
    rw [htext]
    exact .plain (fun h => absurd h (by decide)) (.status .done)
  have hpair : Reads "$$X".toList [.reference .processId, .plain 'X'] := by
    have htext : "$$X".toList = ['$', '$', 'X'] := rfl
    rw [htext]
    exact .processId (.plain (fun h => absurd h (by decide)) .done)
  have hnames : Reads "$Y_2$Z.$X".toList
      [.reference (.variable ['Y', '_', '2']), .reference (.variable ['Z']), .plain '.',
        .reference (.variable ['X'])] := by
    have htext : "$Y_2$Z.$X".toList = ['$', 'Y', '_', '2', '$', 'Z', '.', '$', 'X'] := rfl
    have hstop : Fragment.NameEnds ['$', 'Z', '.', '$', 'X'] := by simp [Fragment.NameEnds]; decide
    have hdot : Fragment.NameEnds ['.', '$', 'X'] := by simp [Fragment.NameEnds]; decide
    have hrest : Reads ['.', '$', 'X'] [.plain '.', .reference (.variable ['X'])] :=
      .plain (fun h => absurd h (by decide)) hlast
    have hunset := @Reads.name 'Z' [] ['.', '$', 'X'] (by decide) (by simp) hdot _ hrest
    have hname : ∀ c ∈ ['_', '2'], Reference.isNameChar c = true :=
      List.forall_mem_cons.mpr ⟨by decide, List.forall_mem_singleton.mpr (by decide)⟩
    rw [htext]
    exact @Reads.name 'Y' ['_', '2'] _ (by decide) hname hstop _ hunset
  have happart : EndsApart [.reference .processId, .reference (.variable ['X'])] "-$?".toList := by
    refine ⟨by decide, fun _ _ c hc => ?_⟩
    obtain rfl : '-' = c := by simpa using hc
    decide
  obtain ⟨hword, happend, -⟩ := scope.expandWord_reads
  have hfirst : scope.expandWord "$$$X" = "42$$;" :=
    (hword _ _).mpr ⟨_, hreads, by decide +kernel⟩
  have hsecond : scope.expandWord "-$?" = "-7" := (hword _ _).mpr ⟨_, hnext, by decide +kernel⟩
  refine ⟨?_, (hword _ _).mpr ⟨_, hpair, by decide +kernel⟩,
    (hword _ _).mpr ⟨_, hnames, by decide +kernel⟩⟩
  rw [happend _ _ _ hreads happart, hfirst, hsecond]

end Scope

end CommandShell
