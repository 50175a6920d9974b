import Wiring.Proofs.Json.Lexeme

/-!
# Values are read as they were written

The indented text of a value without doubles is read as that value, whatever
comes after it.
-/

namespace Wiring
namespace Json

mutual

def draft : Json → Draft
  | .null => .null
  | .bool b => .bool b
  | .int n => .number (some (.int n))
  | .double x => .number (some (.double x))
  | .str s => .string (some s)
  | .arr items => .array (draftItems items)
  | .obj fields => .object (draftFields fields)

def draftItems : List Json → List Draft
  | [] => []
  | value :: rest => draft value :: draftItems rest

def draftFields : List (String × Json) → List (Option String × Draft)
  | [] => []
  | (key, value) :: rest => (some key, draft value) :: draftFields rest

end

theorem draftItems_eq (items : List Json) : draftItems items = items.map draft := by
  induction items with
  | nil => rfl
  | cons value rest ih => rw [draftItems, ih, List.map_cons]

theorem draftFields_eq (fields : List (String × Json)) :
    draftFields fields = fields.map fun f => (some f.1, draft f.2) := by
  induction fields with
  | nil => rfl
  | cons field rest ih => rw [draftFields, ih, List.map_cons]

/-- Values without doubles whose numbers are naturals of 64 bits. -/
inductive Plain : Json → Prop where
  | null : Plain .null
  | bool (b : Bool) : Plain (.bool b)
  | nat {n : Nat} (fits : n ≤ Numeral.maxWord) : Plain (.int n)
  | str (s : String) : Plain (.str s)
  | arr {items : List Json} (values : ∀ value, value ∈ items → Plain value) : Plain (.arr items)
  | obj {fields : List (String × Json)} (values : ∀ field, field ∈ fields → Plain field.2) :
      Plain (.obj fields)

namespace Draft

/-!
# Blanks
-/

theorem skipBlanks_newline (indent : Nat) (cs : List Char) :
    skipBlanks (newline indent ++ cs) = skipBlanks cs := by
  unfold skipBlanks newline
  rw [List.dropWhile_append_of_pos]
  intro c hc
  rcases List.mem_cons.mp hc with rfl | hc
  · rfl
  · rw [List.eq_of_mem_replicate hc]
    rfl

theorem skipBlanks_cons {c : Char} (h : isBlank c = false) (cs : List Char) :
    skipBlanks (c :: cs) = c :: cs := by
  simp [skipBlanks, h]

theorem skipBlanks_skipBlanks (cs : List Char) : skipBlanks (skipBlanks cs) = skipBlanks cs := by
  unfold skipBlanks
  induction cs with
  | nil => rfl
  | cons c cs ih =>
      rw [List.dropWhile_cons]
      split
      · exact ih
      · next h => rw [List.dropWhile_cons, if_neg h]

theorem readValue?_skipBlanks (fuel : Nat) (cs : List Char) :
    readValue? fuel (skipBlanks cs) = readValue? fuel cs := by
  cases fuel with
  | zero => rfl
  | succ fuel => rw [readValue?, readValue?, skipBlanks_skipBlanks]

theorem readValue?_newline (fuel indent : Nat) (cs : List Char) :
    readValue? fuel (newline indent ++ cs) = readValue? fuel cs := by
  rw [← readValue?_skipBlanks, skipBlanks_newline, readValue?_skipBlanks]

theorem readItems?_skipBlanks (fuel : Nat) (cs : List Char) :
    readItems? fuel (skipBlanks cs) = readItems? fuel cs := by
  cases fuel with
  | zero => rfl
  | succ fuel => rw [readItems?, readItems?, readValue?_skipBlanks]

theorem readFields?_skipBlanks (fuel : Nat) (cs : List Char) :
    readFields? fuel (skipBlanks cs) = readFields? fuel cs := by
  cases fuel with
  | zero => rfl
  | succ fuel => rw [readFields?, readFields?, skipBlanks_skipBlanks]

/-!
# Steps of the reader
-/

section Steps

variable {fuel : Nat} {cs rest : List Char} {value : Draft}

theorem readItems?_last (cs' : List Char) (hvalue : readValue? fuel cs = some (value, cs'))
    (hend : skipBlanks cs' = ']' :: rest) :
    readItems? (fuel + 1) cs = some ([value], rest) := by
  rw [readItems?, hvalue]
  simp [hend]

theorem readItems?_more {cs'' : List Char} {items : List Draft} (cs' : List Char)
    (hvalue : readValue? fuel cs = some (value, cs')) (hcomma : skipBlanks cs' = ',' :: cs'')
    (hitems : readItems? fuel cs'' = some (items, rest)) :
    readItems? (fuel + 1) cs = some (value :: items, rest) := by
  rw [readItems?, hvalue]
  simp [hcomma, hitems]

theorem readValue?_array {items : List Draft} (hend : forall cs', skipBlanks cs ≠ ']' :: cs')
    (hitems : readItems? fuel cs = some (items, rest)) :
    readValue? (fuel + 1) ('[' :: cs) = some (.array items, rest) := by
  rw [readValue?, skipBlanks_cons rfl]
  split
  · next heq => simp at heq
  · next heq =>
      cases heq
      split
      · next heq => exact absurd heq (hend _)
      · rw [readItems?_skipBlanks, hitems]
        rfl
  · next heq => simp at heq
  · next hne _ => exact (hne _ rfl).elim

def BeginsField (fuel : Nat) (cs : List Char) (key : Option String) (value : Draft)
    (cs' : List Char) : Prop :=
  exists quotedKey text, skipBlanks cs = '"' :: quotedKey ∧
    readString? quotedKey = some (key, ':' :: text) ∧ readValue? fuel text = some (value, cs')

theorem readFields?_last {key : Option String} (cs' : List Char)
    (hfield : BeginsField fuel cs key value cs') (hend : skipBlanks cs' = '\x7d' :: rest) :
    readFields? (fuel + 1) cs = some ([(key, value)], rest) := by
  rcases hfield with ⟨quotedKey, text, hquote, hkey, hvalue⟩
  rw [readFields?, hquote]
  simp [hkey, skipBlanks_cons (c := ':') rfl, hvalue, hend]

theorem readFields?_more {key : Option String} {cs'' : List Char}
    {fields : List (Option String × Draft)} (cs' : List Char)
    (hfield : BeginsField fuel cs key value cs') (hcomma : skipBlanks cs' = ',' :: cs'')
    (hfields : readFields? fuel cs'' = some (fields, rest)) :
    readFields? (fuel + 1) cs = some ((key, value) :: fields, rest) := by
  rcases hfield with ⟨quotedKey, text, hquote, hkey, hvalue⟩
  rw [readFields?, hquote]
  simp [hkey, skipBlanks_cons (c := ':') rfl, hvalue, hcomma, hfields]

theorem readValue?_object {fields : List (Option String × Draft)}
    (hend : forall cs', skipBlanks cs ≠ '\x7d' :: cs')
    (hfields : readFields? fuel cs = some (fields, rest)) :
    readValue? (fuel + 1) ('\x7b' :: cs) = some (.object fields, rest) := by
  rw [readValue?, skipBlanks_cons rfl]
  split
  · next heq => simp at heq
  · next heq => simp at heq
  · next heq =>
      cases heq
      split
      · next heq => exact absurd heq (hend _)
      · rw [readFields?_skipBlanks, hfields]
        rfl
  · next hne => exact (hne _ rfl).elim

theorem isBlank_of_isDigit {c : Char} (hdigit : Decimal.isDigit c = true) :
    isBlank c = false := by
  have hne {d : Char} (hd : Decimal.isDigit d = false) : c ≠ d := by
    rintro rfl
    rw [hd] at hdigit
    cases hdigit
  simp [isBlank, hne (d := ' ') rfl, hne (d := '\n') rfl, hne (d := '\t') rfl,
    hne (d := '\r') rfl]

theorem readValue?_digit {c : Char} (hdigit : Decimal.isDigit c = true) :
    readValue? (fuel + 1) (c :: cs) =
      (Numeral.read? (c :: cs)).map fun r => (.number r.1.value?, r.2) := by
  have hblank := isBlank_of_isDigit hdigit
  rw [readValue?, skipBlanks_cons hblank]
  split
  · next heq =>
      cases heq
      cases hdigit
  · next heq =>
      cases heq
      cases hdigit
  · next heq =>
      cases heq
      cases hdigit
  · rw [readScalar?.eq_def]
    split
    · next heq =>
        cases heq
        cases hdigit
    · next heq =>
        cases heq
        cases hdigit
    · next heq =>
        cases heq
        cases hdigit
    · rfl

end Steps

/-!
# Values
-/

def Reads (value : Json) : Prop :=
  forall indent fuel rest, Follows rest -> (prettyChars indent value).length < fuel ->
    readValue? fuel (prettyChars indent value ++ rest) = some (draft value, rest)

theorem prettyChars_nat (indent n : Nat) :
    prettyChars indent (.int n) = Nat.toDigits 10 n := by
  have htext : toString (n : Int) = n.repr := rfl
  rw [prettyChars, scalarText, htext, Nat.toList_repr]
  all_goals simp

theorem skipBlanks_ne_end {value : Json} (h : Plain value) (indent : Nat) (rest cs : List Char) :
    skipBlanks (prettyChars indent value ++ rest) ≠ ']' :: cs := by
  have hhead : exists c cs, prettyChars indent value = c :: cs ∧ isBlank c = false ∧ c ≠ ']' := by
    cases h with
    | null => exact ⟨_, _, rfl, rfl, by decide⟩
    | bool b => cases b <;> exact ⟨_, _, rfl, rfl, by decide⟩
    | @nat n fits =>
        rcases Numeral.exists_toDigits n with ⟨c, cs, heq, -⟩
        have hdigit : Decimal.isDigit c = true :=
          Numeral.isDigit_of_mem (heq ▸ List.mem_cons_self)
        refine ⟨c, cs, by rw [prettyChars_nat, heq], isBlank_of_isDigit hdigit, ?_⟩
        rintro rfl
        cases hdigit
    | str s => exact ⟨_, _, rfl, rfl, by decide⟩
    | @arr items values => cases items <;> exact ⟨_, _, rfl, rfl, by decide⟩
    | @obj fields values => cases fields <;> exact ⟨_, _, rfl, rfl, by decide⟩
  rcases hhead with ⟨c, cs', heq, hblank, hne⟩
  rw [heq, List.cons_append, skipBlanks_cons hblank]
  intro hcons
  cases hcons
  exact hne rfl

theorem reads_items {items : List Json} (hne : items ≠ [])
    (h : forall value, value ∈ items -> Reads value) {indent outer fuel : Nat}
    (hfuel : (prettyItems indent items).length < fuel) (rest : List Char) :
    readItems? fuel (prettyItems indent items ++ (newline outer ++ ']' :: rest)) =
      some (draftItems items, rest) := by
  induction items generalizing fuel with
  | nil => exact absurd rfl hne
  | cons value more ih =>
      cases fuel with
      | zero => exact absurd hfuel (Nat.not_lt_zero _)
      | succ fuel =>
          have hvalue := h value List.mem_cons_self
          cases more with
          | nil =>
              -- An item uses one level of fuel, and its text has at least its new line.
              simp only [prettyItems, newline, List.length_append, List.length_cons] at hfuel
              refine readItems?_last (newline outer ++ ']' :: rest) ?_ ?_
              · rw [prettyItems, List.append_assoc, readValue?_newline]
                exact hvalue indent fuel _ (follows_newline _ _) (by omega)
              · rw [skipBlanks_newline, skipBlanks_cons rfl]
          | cons second more =>
              simp only [prettyItems, newline, List.length_append, List.length_cons] at hfuel
              refine readItems?_more (',' :: (prettyItems indent (second :: more) ++
                (newline outer ++ ']' :: rest))) ?_ (skipBlanks_cons rfl _) ?_
              · rw [prettyItems, List.append_assoc, List.append_assoc, readValue?_newline]
                · exact hvalue indent fuel _ (Or.inr ⟨_, Or.inl rfl⟩) (by omega)
                · exact List.cons_ne_nil _ _
              · exact ih (List.cons_ne_nil _ _) (fun v hv => h v (List.mem_cons_of_mem _ hv))
                  (by omega)

theorem beginsField {value : Json} (hvalue : Reads value) {indent fuel : Nat} {rest : List Char}
    (hrest : Follows rest) (hfuel : (prettyChars indent value).length < fuel) (key : String) :
    BeginsField fuel
      (newline indent ++ (quoted key ++ ':' :: ' ' :: (prettyChars indent value ++ rest)))
      (some key) (draft value) rest := by
  rcases exists_quoted key with ⟨quotedKey, heq, hkey⟩
  refine ⟨quotedKey ++ ':' :: ' ' :: (prettyChars indent value ++ rest), _, ?_, hkey _, ?_⟩
  · rw [skipBlanks_newline, heq, List.cons_append, skipBlanks_cons rfl]
  · have hblank : skipBlanks (' ' :: (prettyChars indent value ++ rest)) =
        skipBlanks (prettyChars indent value ++ rest) := rfl
    rw [← readValue?_skipBlanks, hblank, readValue?_skipBlanks]
    exact hvalue indent fuel rest hrest hfuel

theorem reads_fields {fields : List (String × Json)} (hne : fields ≠ [])
    (h : forall field, field ∈ fields -> Reads field.2) {indent outer fuel : Nat}
    (hfuel : (prettyFields indent fields).length < fuel) (rest : List Char) :
    readFields? fuel (prettyFields indent fields ++ (newline outer ++ '\x7d' :: rest)) =
      some (draftFields fields, rest) := by
  induction fields generalizing fuel with
  | nil => exact absurd rfl hne
  | cons field more ih =>
      rcases field with ⟨key, value⟩
      cases fuel with
      | zero => exact absurd hfuel (Nat.not_lt_zero _)
      | succ fuel =>
          have hvalue : Reads value := h (key, value) List.mem_cons_self
          cases more with
          | nil =>
              simp only [prettyFields, newline, List.length_append, List.length_cons] at hfuel
              refine readFields?_last (newline outer ++ '\x7d' :: rest) ?_ ?_
              · rw [prettyFields, List.append_assoc, List.append_assoc]
                exact beginsField hvalue (follows_newline _ _) (by omega) key
              · rw [skipBlanks_newline, skipBlanks_cons rfl]
          | cons second more =>
              simp only [prettyFields, newline, List.length_append, List.length_cons] at hfuel
              refine readFields?_more (',' :: (prettyFields indent (second :: more) ++
                (newline outer ++ '\x7d' :: rest))) ?_ (skipBlanks_cons rfl _) ?_
              · have hfield := beginsField hvalue (Or.inr ⟨prettyFields indent (second :: more) ++
                  (newline outer ++ '\x7d' :: rest), Or.inl rfl⟩)
                  (show (prettyChars indent value).length < fuel by omega) key
                simpa [prettyFields] using hfield
              · exact ih (List.cons_ne_nil _ _) (fun f hf => h f (List.mem_cons_of_mem _ hf))
                  (by omega)

theorem exists_prettyItems (indent : Nat) (value : Json) (more : List Json) : exists tail,
    prettyItems indent (value :: more) = newline indent ++ (prettyChars indent value ++ tail) := by
  cases more with
  | nil => exact ⟨[], by rw [prettyItems, List.append_nil]⟩
  | cons second more => exact ⟨_, by rw [prettyItems, List.append_assoc]; simp⟩

theorem exists_prettyFields (indent : Nat) (field : String × Json) (more : List (String × Json)) :
    exists tail, prettyFields indent (field :: more) = newline indent ++ '"' :: tail := by
  rcases field with ⟨key, value⟩
  cases more with
  | nil => exact ⟨_, by rw [prettyFields, quoted, List.append_assoc, List.cons_append]⟩
  | cons second more =>
      exact ⟨_, by rw [prettyFields, quoted, List.append_assoc, List.cons_append]; simp⟩

theorem reads_of_succ {value : Json}
    (h : forall indent fuel rest, Follows rest -> (prettyChars indent value).length ≤ fuel ->
      readValue? (fuel + 1) (prettyChars indent value ++ rest) = some (draft value, rest)) :
    Reads value := by
  intro indent fuel rest hrest hfuel
  cases fuel with
  | zero => exact absurd hfuel (Nat.not_lt_zero _)
  | succ fuel => exact h indent fuel rest hrest (Nat.le_of_lt_succ hfuel)

theorem reads_arr {items : List Json} (values : forall value, value ∈ items -> Plain value)
    (h : forall value, value ∈ items -> Reads value) : Reads (.arr items) := by
  refine reads_of_succ fun indent fuel rest _ hfuel => ?_
  cases items with
  | nil =>
      rw [readValue?]
      rfl
  | cons value more =>
      have htext : prettyChars indent (.arr (value :: more)) ++ rest =
          '[' :: (prettyItems (indent + 1) (value :: more) ++ (newline indent ++ ']' :: rest)) := by
        simp [prettyChars]
      rw [htext]
      simp only [prettyChars, List.length_cons, List.length_append] at hfuel
      refine readValue?_array ?_ (reads_items (List.cons_ne_nil _ _) h (by omega) rest)
      intro cs
      rcases exists_prettyItems (indent + 1) value more with ⟨tail, hitems⟩
      rw [hitems, List.append_assoc, List.append_assoc, skipBlanks_newline]
      exact skipBlanks_ne_end (values value List.mem_cons_self) _ _ _

theorem reads_obj {fields : List (String × Json)}
    (h : forall field, field ∈ fields -> Reads field.2) : Reads (.obj fields) := by
  refine reads_of_succ fun indent fuel rest _ hfuel => ?_
  cases fields with
  | nil =>
      rw [readValue?]
      rfl
  | cons field more =>
      have htext : prettyChars indent (.obj (field :: more)) ++ rest = '\x7b' ::
          (prettyFields (indent + 1) (field :: more) ++ (newline indent ++ '\x7d' :: rest)) := by
        simp [prettyChars]
      rw [htext]
      simp only [prettyChars, List.length_cons, List.length_append] at hfuel
      refine readValue?_object ?_ (reads_fields (List.cons_ne_nil _ _) h (by omega) rest)
      intro cs
      rcases exists_prettyFields (indent + 1) field more with ⟨tail, hfields⟩
      rw [hfields, List.append_assoc, skipBlanks_newline, List.cons_append,
        skipBlanks_cons rfl]
      intro hend
      simp at hend

theorem reads_of_plain {value : Json} (h : Plain value) : Reads value := by
  induction h with
  | null =>
      refine reads_of_succ fun indent fuel rest _ _ => ?_
      rw [readValue?]
      rfl
  | bool b =>
      refine reads_of_succ fun indent fuel rest _ _ => ?_
      rw [readValue?]
      cases b <;> rfl
  | @nat n fits =>
      refine reads_of_succ fun indent fuel rest hrest _ => ?_
      rw [prettyChars_nat]
      rcases Numeral.exists_toDigits n with ⟨c, cs, heq, -⟩
      have hdigit : Decimal.isDigit c = true := Numeral.isDigit_of_mem (heq ▸ List.mem_cons_self)
      have hread := Numeral.read?_toDigits n hrest
      rw [heq, List.cons_append] at hread
      rw [heq, List.cons_append, readValue?_digit hdigit, hread, Option.map_some, ← heq,
        Numeral.value?_toDigits fits]
      rfl
  | str s =>
      refine reads_of_succ fun indent fuel rest _ _ => ?_
      rcases exists_quoted s with ⟨cs, heq, hread⟩
      have htext : prettyChars indent (.str s) = '"' :: cs := by
        rw [prettyChars, scalarText, heq]
        all_goals simp
      rw [htext, List.cons_append, readValue?, skipBlanks_cons rfl]
      simp [hread, draft]
  | arr values ih => exact reads_arr values ih
  | obj values ih => exact reads_obj ih

theorem ofText?_pretty {value : Json} (h : Plain value) :
    ofText? value.pretty = some (draft value) := by
  have hread := reads_of_plain h 0 ((prettyChars 0 value).length + 1) [] (Or.inl rfl)
    (Nat.lt_succ_self _)
  rw [List.append_nil] at hread
  rw [ofText?, pretty, String.toList_ofList, hread]
  rfl

end Draft
end Json
end Wiring
