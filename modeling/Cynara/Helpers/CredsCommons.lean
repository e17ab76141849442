import Cynara.Library.Maps
import Cynara.Library.Records
import Cynara.Types.ErrorCodes

/-!
# The method in the configuration of the credentials helpers

A line of the configuration is a key and a value with an equals sign between them; what follows a
`#` is a comment.  The method is the value of the only line with a given key, and it has to be one
of the names in a map.  The file is read line by line, and the reading ends at the second line with
the key or at a value that is not in the map.
-/

open Std

namespace Cynara

open Str

/-- What the helpers use of a `std::locale`. -/
structure Locale where
  isspace : UInt8 → Bool
  tolower : UInt8 → UInt8

/-- The values that the configuration gives to the methods, by their names. -/
abbrev CredentialsMap := ExtTreeMap Str ℤ

namespace CredsCommonsInnerBackend

variable (loc : Locale)

/-! ### Lines of the configuration -/

/-- The text without the spaces before it. -/
def ltrim (s : Str) : Str := s.dropWhile loc.isspace

/-- The text without the spaces after it. -/
def rtrim (s : Str) : Str := s.rdropWhile loc.isspace

def toLower (s : Str) : Str := s.map loc.tolower

/-- How a line of the configuration is compared with the names of the methods. -/
def normalizeString (s : Str) : Str := toLower loc (ltrim loc (rtrim loc s))

/-- The key and the value in a line. -/
def parseLine (rawLine : Str) : Option (Str × Str) :=
  match (lines 35 rawLine).head? with
  | none => none
  | some uncommentedLine =>
      match cut 61 uncommentedLine with
      | none => none
      | some (tempKey, tempValue) =>
          if tempKey.isEmpty then none
          else some (normalizeString loc tempKey, normalizeString loc tempValue)

/-- The next key and value, and the lines after them. -/
def getKeyAndValue : List Str → Option ((Str × Str) × List Str)
  | [] => none
  | rawLine :: f =>
      match parseLine loc rawLine with
      | some found => some (found, f)
      | none => getKeyAndValue f

theorem length_getKeyAndValue {f f' : List Str} {found : Str × Str}
    (h : getKeyAndValue loc f = some (found, f')) :
  f'.length < f.length
  := by
  induction f with
  | nil => contradiction
  | cons rawLine f ih =>
      unfold getKeyAndValue at h
      split at h
      · cases h
        exact Nat.lt_succ_self _
      · exact Nat.lt_succ_of_lt (ih h)

/-! ### The method -/

/-- Take the method from a value.  The answer comes with the new values of `method` and
`occurred`. -/
def interpretValue (methodCodeMap : CredentialsMap) (method : ℤ) (value : Str) (occurred : Bool) :
    Bool × ℤ × Bool :=
  if occurred then (false, method, occurred)
  else
    match methodCodeMap[value]? with
    | none => (false, method, true)
    | some code => (true, code, true)

/-- The loop of `getMethodFromConfigurationFile`: `none` if it returns early, else the values of
`tmpMethod` and `occurred` after it. -/
def readMethod (methodCodeMap : CredentialsMap) (methodName : Str) (f : List Str) (tmpMethod : ℤ)
    (occurred : Bool) : Option (ℤ × Bool) :=
  match _h : getKeyAndValue loc f with
  | none => some (tmpMethod, occurred)
  | some ((key, value), f') =>
      if key = methodName then
        match interpretValue methodCodeMap tmpMethod value occurred with
        | (false, _) => none
        | (true, tmpMethod, occurred) =>
            readMethod methodCodeMap methodName f' tmpMethod occurred
      else readMethod methodCodeMap methodName f' tmpMethod occurred
termination_by f.length
decreasing_by
  · exact length_getKeyAndValue loc _h
  · exact length_getKeyAndValue loc _h

/-- The answer and the new value of `method`.  The variable `tmpMethod` is not initialised. -/
def getMethodFromConfigurationFile (text : Str) (methodCodeMap : CredentialsMap)
    (methodName : Str) (method tmpMethod : ℤ) : ℤ × ℤ :=
  match readMethod loc methodCodeMap methodName (lines 10 text) tmpMethod false with
  | none => (CYNARA_API_CONFIGURATION_ERROR, method)
  | some (tmpMethod, occurred) =>
      if occurred then (CYNARA_API_SUCCESS, tmpMethod)
      else (CYNARA_API_CONFIGURATION_ERROR, method)

/-! ### What the lines say -/

/-- A line, without its comment, gives a value to a key that is not empty before it is trimmed. -/
def Gives (line key value : Str) : Prop :=
  ∃ tempKey tempValue, line.takeWhile (· != 35) = tempKey ++ 61 :: tempValue ∧ 61 ∉ tempKey
    ∧ tempKey ≠ [] ∧ normalizeString loc tempKey = key ∧ normalizeString loc tempValue = value

theorem parseLine_eq_some_iff {line key value : Str} :
  parseLine loc line = some (key, value) ↔ Gives loc line key value
  := by
  cases line with
  | nil =>
      refine ⟨fun h => by contradiction, ?_⟩
      rintro ⟨tempKey, tempValue, h, -⟩
      simp at h
  | cons c cs =>
      simp only [parseLine, head?_lines_cons]
      constructor
      · intro h
        split at h
        · contradiction
        · rename_i tempKey tempValue hcut
          obtain ⟨htext, hkey⟩ := cut_eq_some hcut
          split at h
          · contradiction
          · rename_i hne
            cases h
            exact ⟨tempKey, tempValue, htext, hkey, by simpa using hne, rfl, rfl⟩
      · rintro ⟨tempKey, tempValue, htext, hkey, hne, rfl, rfl⟩
        simp [htext, cut_append_sep hkey, hne]

/-- The value that a line gives to a key. -/
def valueOf (methodName line : Str) : Option Str :=
  (parseLine loc line).bind fun found => if found.1 = methodName then some found.2 else none

theorem valueOf_eq_some_iff {methodName line value : Str} :
  valueOf loc methodName line = some value ↔ Gives loc line methodName value
  := by
  rw [valueOf, ← parseLine_eq_some_iff, Option.bind_eq_some_iff]
  constructor
  · rintro ⟨⟨key, value'⟩, hparse, hvalue⟩
    obtain ⟨hkey, hvalue⟩ := Option.ite_none_right_eq_some.mp hvalue
    rw [hparse, ← hkey, ← Option.some.inj hvalue]
  · intro hparse
    exact ⟨_, hparse, by simp⟩

variable {loc} {methodCodeMap : CredentialsMap} {methodName : Str} {tmpMethod : ℤ}
  {occurred : Bool}

theorem readMethod_nil :
  readMethod loc methodCodeMap methodName [] tmpMethod occurred = some (tmpMethod, occurred)
  := by
  unfold readMethod
  rfl

/-- The two loops read one line after the other, and lines without the key do not count. -/
theorem readMethod_cons (line : Str) (f : List Str) :
  readMethod loc methodCodeMap methodName (line :: f) tmpMethod occurred
    = match valueOf loc methodName line with
      | none => readMethod loc methodCodeMap methodName f tmpMethod occurred
      | some value =>
          match interpretValue methodCodeMap tmpMethod value occurred with
          | (false, _) => none
          | (true, tmpMethod, occurred) =>
              readMethod loc methodCodeMap methodName f tmpMethod occurred
  := by
  cases hparse : parseLine loc line with
  | none =>
      have hnext : getKeyAndValue loc (line :: f) = getKeyAndValue loc f := by
        rw [getKeyAndValue, hparse]
      have hvalue : valueOf loc methodName line = none := by rw [valueOf, hparse, Option.bind_none]
      rw [hvalue, readMethod.eq_def, readMethod.eq_def, hnext]
  | some found =>
      obtain ⟨key, value⟩ := found
      have hnext : getKeyAndValue loc (line :: f) = some ((key, value), f) := by
        rw [getKeyAndValue, hparse]
      rw [readMethod.eq_def, hnext, valueOf, hparse, Option.bind_some]
      dsimp only
      split
      · rfl
      · rfl

/-- After a line with the key, another one is an error. -/
theorem readMethod_of_occurred (f : List Str) :
  readMethod loc methodCodeMap methodName f tmpMethod true
    = if f.filterMap (valueOf loc methodName) = [] then some (tmpMethod, true) else none
  := by
  induction f with
  | nil => exact readMethod_nil
  | cons line f ih =>
      rw [readMethod_cons]
      cases hvalue : valueOf loc methodName line with
      | none => rw [List.filterMap_cons_none hvalue, ih]
      | some value => simp [List.filterMap_cons_some hvalue, interpretValue]

/-- The values that the lines give to the key decide what is read. -/
theorem readMethod_eq (f : List Str) :
  readMethod loc methodCodeMap methodName f tmpMethod false
    = match f.filterMap (valueOf loc methodName) with
      | [] => some (tmpMethod, false)
      | [value] => methodCodeMap[value]?.map (·, true)
      | _ :: _ :: _ => none
  := by
  induction f with
  | nil => exact readMethod_nil
  | cons line f ih =>
      rw [readMethod_cons]
      cases hvalue : valueOf loc methodName line with
      | none => rw [List.filterMap_cons_none hvalue, ih]
      | some value =>
          rw [List.filterMap_cons_some hvalue]
          cases hcode : methodCodeMap[value]? with
          | none =>
              simp only [interpretValue, Bool.false_eq_true, if_false, hcode]
              cases f.filterMap (valueOf loc methodName) with
              | nil => simp only [hcode, Option.map_none]
              | cons value' values => rfl
          | some code =>
              simp only [interpretValue, Bool.false_eq_true, if_false, hcode,
                readMethod_of_occurred]
              cases f.filterMap (valueOf loc methodName) with
              | nil => simp only [hcode, Option.map_some, if_true]
              | cons value' values => rfl

/-! ### The method that is configured -/

/-- Exactly one of some lines gives a value to the key, and which one it gives. -/
def GivesOnce (loc : Locale) (f : List Str) (key value : Str) : Prop :=
  ∃ before line after, f = before ++ line :: after ∧ Gives loc line key value
    ∧ ∀ other ∈ before ++ after, ∀ value', ¬ Gives loc other key value'

theorem filterMap_valueOf_eq_nil_iff {f : List Str} :
  f.filterMap (valueOf loc methodName) = []
    ↔ ∀ line ∈ f, ∀ value, ¬ Gives loc line methodName value
  := by
  simp only [List.filterMap_eq_nil_iff, Option.eq_none_iff_forall_ne_some, ne_eq,
    valueOf_eq_some_iff]

/-- A name has one value in a file. -/
theorem givesOnce_iff {f : List Str} {value : Str} :
  GivesOnce loc f methodName value ↔ f.filterMap (valueOf loc methodName) = [value]
  := by
  rw [List.filterMap_eq_cons_iff]
  constructor
  · rintro ⟨before, line, after, rfl, hgives, hothers⟩
    refine ⟨before, line, after, rfl, ?_, valueOf_eq_some_iff loc |>.mpr hgives, ?_⟩
    · intro other hother
      rw [Option.eq_none_iff_forall_ne_some]
      intro value' hvalue'
      exact hothers other (List.mem_append_left _ hother) value'
        ((valueOf_eq_some_iff loc).mp hvalue')
    · rw [filterMap_valueOf_eq_nil_iff]
      intro other hother
      exact hothers other (List.mem_append_right _ hother)
  · rintro ⟨before, line, after, rfl, hbefore, hline, hafter⟩
    refine ⟨before, line, after, rfl, (valueOf_eq_some_iff loc).mp hline, ?_⟩
    intro other hother value' hgives
    obtain hother | hother := List.mem_append.mp hother
    · have hnone := hbefore other hother
      rw [(valueOf_eq_some_iff loc).mpr hgives] at hnone
      contradiction
    · exact filterMap_valueOf_eq_nil_iff.mp hafter other hother value' hgives

/-- The empty text after a newline at the end is no line with the key. -/
theorem filterMap_splitOn (text : Str) :
  (text.splitOn 10).filterMap (valueOf loc methodName)
    = (lines 10 text).filterMap (valueOf loc methodName)
  := by
  obtain h | h := splitOn_eq_lines 10 text
  · rw [h]
  · rw [h, List.filterMap_append, List.filterMap_cons_none rfl, List.filterMap_nil, List.append_nil]

/-- A method is read exactly if one line gives the key a value and the value is in the map.  Else
the configuration is in error, and the method is left as it is. -/
theorem getMethodFromConfigurationFile_eq_iff (loc : Locale) (text : Str)
    (methodCodeMap : CredentialsMap) (methodName : Str) (method tmpMethod : ℤ) :
  let answer :=
    getMethodFromConfigurationFile loc text methodCodeMap methodName method tmpMethod
  (∀ m, answer = (CYNARA_API_SUCCESS, m)
      ↔ ∃ value, GivesOnce loc (text.splitOn 10) methodName value
        ∧ methodCodeMap[value]? = some m)
    ∧ ((¬ ∃ value m, GivesOnce loc (text.splitOn 10) methodName value
        ∧ methodCodeMap[value]? = some m) →
      answer = (CYNARA_API_CONFIGURATION_ERROR, method))
  := by
  have hcodes : CYNARA_API_CONFIGURATION_ERROR ≠ CYNARA_API_SUCCESS := by decide
  simp only [getMethodFromConfigurationFile, readMethod_eq, givesOnce_iff, filterMap_splitOn]
  cases (lines 10 text).filterMap (valueOf loc methodName) with
  | nil => simp [hcodes]
  | cons value values =>
      cases values with
      | nil =>
          cases hcode : methodCodeMap[value]? with
          | none => simp [hcodes, hcode]
          | some code => simp [hcode]
      | cons value' values => simp [hcodes]

end CredsCommonsInnerBackend

end Cynara
