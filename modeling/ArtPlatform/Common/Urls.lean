import ArtPlatform.Common.Names

/-!
# Texts and addresses

The text functions of the Kotlin library that the agent applies to the address of a
module, and the two extractors built from them.  A delimiter that does not occur
leaves the text as it is, unless the caller names a default.
-/

namespace ArtPlatform

def isBlank (s : String) : Bool :=
  s.toList.all isWhitespace

def startsWith (s pre : String) : Bool :=
  pre.toList.isPrefixOf s.toList

theorem startsWith_iff (s pre : String) :
    startsWith s pre = true ↔ pre.toList <+: s.toList :=
  List.isPrefixOf_iff_prefix

@[simp]
theorem startsWith_self (s : String) : startsWith s s = true :=
  (startsWith_iff s s).mpr List.prefix_rfl

/-- A common beginning does not matter. -/
@[simp]
theorem startsWith_append (s t u : String) : startsWith (s ++ t) (s ++ u) = startsWith t u := by
  rw [Bool.eq_iff_iff, startsWith_iff, startsWith_iff, String.toList_append,
    String.toList_append]
  exact List.prefix_append_right_inj s.toList

/-- The characters behind the first occurrence of a delimiter. -/
def charsAfter (delimiter : List Char) : List Char → Option (List Char)
  | [] => none
  | c :: cs =>
      if delimiter.isPrefixOf (c :: cs) then some ((c :: cs).drop delimiter.length)
      else charsAfter delimiter cs

def substringAfter (s delimiter missing : String) : String :=
  match charsAfter delimiter.toList s.toList with
  | some cs => String.ofList cs
  | none => missing

def substringBefore (s : String) (delimiter : Char) : String :=
  String.ofList (s.toList.takeWhile (· ≠ delimiter))

def substringBeforeLast (s : String) (delimiter : Char) : String :=
  if delimiter ∈ s.toList then
    String.ofList ((s.toList.reverse.dropWhile (· ≠ delimiter)).drop 1).reverse
  else s

def endsWith (s post : String) : Bool :=
  post.toList.isSuffixOf s.toList

theorem endsWith_iff (s post : String) :
    endsWith s post = true ↔ post.toList <:+ s.toList :=
  List.isSuffixOf_iff_suffix

/-- Without the delimiter the text is left as it is. -/
theorem substringBeforeLast_of_notMem {s : String} {delimiter : Char}
    (h : delimiter ∉ s.toList) : substringBeforeLast s delimiter = s :=
  if_neg h

/-- What follows the last delimiter is cut off with it. -/
theorem substringBeforeLast_append (s t : String) {delimiter : Char}
    (h : delimiter ∉ t.toList) :
    substringBeforeLast (s ++ String.singleton delimiter ++ t) delimiter = s := by
  have htoList : (s ++ String.singleton delimiter ++ t).toList =
      s.toList ++ delimiter :: t.toList := by
    simp
  have hdrop : (t.toList.reverse ++ delimiter :: s.toList.reverse).dropWhile (· ≠ delimiter) =
      delimiter :: s.toList.reverse := by
    rw [List.dropWhile_append_of_pos]
    · simp
    · intro c hc
      rw [List.mem_reverse] at hc
      simpa using fun hcd : c = delimiter => h (hcd ▸ hc)
  unfold substringBeforeLast
  rw [htoList, if_pos (by simp), List.reverse_append, List.reverse_cons, List.append_assoc,
    List.singleton_append, hdrop]
  simp

/-- A text with the delimiter is what is before the last one, and a rest without. -/
theorem exists_of_mem_delimiter {s : String} {delimiter : Char} (h : delimiter ∈ s.toList) :
    ∃ t : String, delimiter ∉ t.toList ∧
      s = substringBeforeLast s delimiter ++ String.singleton delimiter ++ t := by
  have hreverse : delimiter ∈ s.toList.reverse := List.mem_reverse.mpr h
  obtain ⟨before, rest, hsplit, hbefore⟩ := List.eq_append_cons_of_mem hreverse
  refine ⟨String.ofList before.reverse, by simpa using hbefore, ?_⟩
  have hs : s = String.ofList rest.reverse ++ String.singleton delimiter ++
      String.ofList before.reverse := by
    apply String.toList_inj.mp
    have := congrArg List.reverse hsplit
    simpa using this
  have hlast : substringBeforeLast s delimiter = String.ofList rest.reverse := by
    rw [hs]
    exact substringBeforeLast_append _ _ (by simpa using hbefore)
  rw [hlast]
  exact hs

/-- A text and its rest behind the last delimiter determine each other. -/
theorem append_delimiter_inj {s s' t t' : String} {delimiter : Char}
    (ht : delimiter ∉ t.toList) (ht' : delimiter ∉ t'.toList) :
    s ++ String.singleton delimiter ++ t = s' ++ String.singleton delimiter ++ t' ↔
      s = s' ∧ t = t' := by
  constructor
  · intro h
    have hs : s = s' := by
      rw [← substringBeforeLast_append s t ht, h, substringBeforeLast_append s' t' ht']
    subst hs
    exact ⟨rfl, String.append_right_inj _ |>.mp h⟩
  · rintro ⟨rfl, rfl⟩
    rfl

/-- The end of a text, from the last delimiter on. -/
theorem endsWith_delimiter_iff {s t u : String} {delimiter : Char}
    (ht : delimiter ∉ t.toList) (hu : delimiter ∉ u.toList) :
    endsWith (s ++ String.singleton delimiter ++ t) (String.singleton delimiter ++ u) = true ↔
      t = u := by
  rw [endsWith_iff]
  constructor
  · rintro ⟨before, hbefore⟩
    have hsplit : String.ofList before ++ String.singleton delimiter ++ u =
        s ++ String.singleton delimiter ++ t := by
      apply String.toList_inj.mp
      simpa using hbefore
    exact ((append_delimiter_inj hu ht).mp hsplit).2.symm
  · rintro rfl
    rw [String.append_assoc, String.toList_append (s := s)]
    exact List.suffix_append _ _

/-- An end without the delimiter lies behind the last one. -/
theorem endsWith_append_delimiter {s t u : String} {delimiter : Char}
    (hu : delimiter ∉ u.toList) :
    endsWith (s ++ String.singleton delimiter ++ t) u = endsWith t u := by
  have htoList : (s ++ String.singleton delimiter ++ t).toList =
      s.toList ++ delimiter :: t.toList := by
    simp
  rw [Bool.eq_iff_iff, endsWith_iff, endsWith_iff, htoList]
  constructor
  · intro h
    rcases List.suffix_or_suffix_of_suffix h (List.suffix_append s.toList _) with hin | hout
    · rcases List.suffix_cons_iff.mp hin with heq | htail
      · exact absurd (heq ▸ List.mem_cons_self) hu
      · exact htail
    · exact absurd (hout.subset List.mem_cons_self) hu
  · intro h
    exact h.trans ((List.suffix_cons delimiter t.toList).trans (List.suffix_append _ _))

/-- Remove the occurrences of a pattern from left to right; the counter skips the
rest of an occurrence. -/
def removeChars (pattern : List Char) : Nat → List Char → List Char
  | _, [] => []
  | 0, c :: cs =>
      if pattern.isPrefixOf (c :: cs) then removeChars pattern (pattern.length - 1) cs
      else c :: removeChars pattern 0 cs
  | skip + 1, _ :: cs => removeChars pattern skip cs

/-- Replace every occurrence of a text that is not empty by nothing. -/
def removeAll (s pattern : String) : String :=
  String.ofList (removeChars pattern.toList 0 s.toList)

def contains (s other : String) : Bool :=
  s.toList.tails.any fun rest => other.toList.isPrefixOf rest

/-- The characters in front of the first occurrence of a delimiter. -/
def charsBefore (delimiter : List Char) : List Char → Option (List Char)
  | [] => none
  | c :: cs =>
      if delimiter.isPrefixOf (c :: cs) then some []
      else (charsBefore delimiter cs).map (c :: ·)

/-- `substringBefore` of a delimiter of several characters. -/
def substringBeforeText (s delimiter : String) : String :=
  match charsBefore delimiter.toList s.toList with
  | some cs => String.ofList cs
  | none => s

def substringAfterLast (s : String) (delimiter : Char) : String :=
  String.ofList (s.toList.reverse.takeWhile (· ≠ delimiter)).reverse

theorem notMem_substringBefore (s : String) (delimiter : Char) :
    delimiter ∉ (substringBefore s delimiter).toList := by
  intro h
  rw [substringBefore, String.toList_ofList] at h
  have hall := List.all_takeWhile (p := fun c => decide (c ≠ delimiter)) (l := s.toList)
  simpa using List.all_eq_true.mp hall delimiter h

def split (s : String) (delimiter : Char) : List String :=
  (s.toList.splitOn delimiter).map String.ofList

def joinToString (separator : String) (parts : List String) : String :=
  String.intercalate separator parts

def extractHostName (url : String) : String :=
  substringBefore (substringBeforeLast (substringAfter url "://" url) ':') '/'

def extractPath (url : String) (defaultPath : String) : String :=
  let path := substringAfter (substringAfter url "://" url) "/" defaultPath
  if path ≠ defaultPath then "/" ++ path else path

end ArtPlatform
