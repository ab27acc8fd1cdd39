import Dataflow.Proofs.Json.Leaves

/-!
# Reading back what was written

A text holds a value without cuts when it has the tokens of the value in their order, with blanks
before, between and after them (`Json.Spaced`).  Every such text is read as the value
(`Json.read_spaced`).  Both layouts of the writer are such texts (`Json.read_compact`,
`Json.read_pretty`).

**Fuel.**  A container has a bracket more than its elements, and every element a comma or a bracket
more than itself, so two steps of descent for each character suffice.
-/

namespace Dataflow

section Plain

mutual

/-- A value without cuts whose numbers are natural and whose strings can be read. -/
def Json.isPlain : Json → Bool
  | .null => true
  | .bool _ => true
  | .num (.natural _) => true
  | .num (.spelled _) => false
  | .str s => s.isSome
  | .arr items => items.isPlain
  | .obj fields => fields.isPlain
  | .cut _ => false

/-- Elements that are plain, up to the end of the array. -/
def Items.isPlain : Items → Bool
  | .nil => true
  | .cons j rest => j.isPlain && rest.isPlain
  | .cut _ => false

/-- Members that are plain, up to the end of the object. -/
def Fields.isPlain : Fields → Bool
  | .nil => true
  | .cons k v rest => k.isSome && v.isPlain && rest.isPlain
  | .cut _ => false

end

end Plain

section Tokens

variable {bs cs : List Char} {c : Char}

theorem skipBlank_of_not_isBlank (h : isBlank c = false) : skipBlank (c :: cs) = c :: cs := by
  simp [skipBlank, h]

theorem skipBlank_append (hbs : ∀ b ∈ bs, isBlank b = true) (h : isBlank c = false) :
    skipBlank (bs ++ c :: cs) = c :: cs := by
  rw [skipBlank, List.dropWhile_append_of_pos hbs]
  exact skipBlank_of_not_isBlank h

/-- A number ends at a blank. -/
theorem stops_append (hbs : ∀ b ∈ bs, isBlank b = true) (h : Stops cs) : Stops (bs ++ cs) := by
  cases bs with
  | nil => exact h
  | cons b bs =>
      have hb := hbs b List.mem_cons_self
      simp only [isBlank, Bool.or_eq_true, decide_eq_true_eq] at hb
      rcases hb with ((rfl | rfl) | rfl) | rfl <;> exact stops_cons (by decide)

theorem isBlank_of_isDigit {d : Char} (hd : isDigit d = true) : isBlank d = false := by
  have hspace := ne_of_isDigit (c := ' ') hd (by decide)
  have hline := ne_of_isDigit (c := '\n') hd (by decide)
  have htab := ne_of_isDigit (c := '\t') hd (by decide)
  have hreturn := ne_of_isDigit (c := '\r') hd (by decide)
  simp [isBlank, hspace, hline, htab, hreturn]

theorem exists_keyChars_eq (s : Literal) : ∃ cs, keyChars s = '"' :: cs := ⟨_, rfl⟩

theorem length_le_flatMap_escapeChar (cs : List Char) :
    cs.length ≤ (cs.flatMap escapeChar).length := by
  induction cs with
  | nil => exact Nat.zero_le _
  | cons c cs ih =>
      have hc : 1 ≤ (escapeChar c).length := by
        unfold escapeChar
        grind
      rw [List.flatMap_cons, List.length_append, List.length_cons]
      omega

/-- A string literal is read back within as many steps as it has characters. -/
theorem readLiteral_keyChars (fuel : Nat) (rest : List Char) (s : String)
    (h : (keyChars (some s)).length ≤ fuel) :
    ∃ cs, keyChars (some s) ++ rest = '"' :: cs ∧ readLiteral fuel cs = .ok (some s, rest) := by
  have hlength := length_le_flatMap_escapeChar s.toList
  simp only [keyChars, Option.getD_some, literalChars, List.cons_append, List.length_cons,
    List.length_append, List.length_nil] at h
  refine ⟨s.toList.flatMap escapeChar ++ '"' :: rest, ?_, readLiteral_escaped (by omega)⟩
  simp [keyChars, literalChars]

end Tokens

section Spacing

/-- Characters that may stand between tokens. -/
def Blank (cs : List Char) : Prop := ∀ c ∈ cs, isBlank c = true

theorem Blank.nil : Blank [] := by simp [Blank]

theorem blank_newline (depth : Nat) : Blank (newline depth) := by
  intro c hc
  rcases List.mem_cons.mp hc with rfl | hc
  · decide
  · rw [List.eq_of_mem_replicate hc]
    decide

theorem blank_space : Blank [' '] := by
  intro c hc
  rw [List.mem_singleton.mp hc]
  decide

mutual

/-- The texts of a value, with blanks between any two tokens. -/
inductive Json.Spaced : Json → List Char → Prop
  | null : Json.Spaced .null ['n', 'u', 'l', 'l']
  | yes : Json.Spaced (.bool true) ['t', 'r', 'u', 'e']
  | no : Json.Spaced (.bool false) ['f', 'a', 'l', 's', 'e']
  | natural (n : Nat) : Json.Spaced (.num (.natural n)) (numberChars (.natural n))
  | str (s : String) : Json.Spaced (.str (some s)) (keyChars (some s))
  | arr {items : Items} {cs : List Char} : items.Spaced cs → Json.Spaced (.arr items) ('[' :: cs)
  | obj {fields : Fields} {cs : List Char} :
      fields.Spaced cs → Json.Spaced (.obj fields) ('\x7b' :: cs)

/-- What follows an opening bracket. -/
inductive Items.Spaced : Items → List Char → Prop
  | nil {bs : List Char} : Blank bs → Items.Spaced .nil (bs ++ [']'])
  | cons {items : Items} {bs cs : List Char} : Blank bs → items.ElementSpaced cs →
      Items.Spaced items (bs ++ cs)

/-- An element and what follows it. -/
inductive Items.ElementSpaced : Items → List Char → Prop
  | intro {j : Json} {items : Items} {cs ds : List Char} : j.Spaced cs → items.MoreSpaced ds →
      Items.ElementSpaced (.cons j items) (cs ++ ds)

/-- What follows an element. -/
inductive Items.MoreSpaced : Items → List Char → Prop
  | nil {bs : List Char} : Blank bs → Items.MoreSpaced .nil (bs ++ [']'])
  | cons {items : Items} {as bs cs : List Char} : Blank as → Blank bs → items.ElementSpaced cs →
      Items.MoreSpaced items (as ++ ',' :: (bs ++ cs))

/-- What follows an opening brace. -/
inductive Fields.Spaced : Fields → List Char → Prop
  | nil {bs : List Char} : Blank bs → Fields.Spaced .nil (bs ++ ['\x7d'])
  | cons {fields : Fields} {bs cs : List Char} : Blank bs → fields.MemberSpaced cs →
      Fields.Spaced fields (bs ++ cs)

/-- A member and what follows it. -/
inductive Fields.MemberSpaced : Fields → List Char → Prop
  | intro {key : String} {v : Json} {fields : Fields} {as bs cs ds : List Char} :
      Blank as → Blank bs →
      v.Spaced cs → fields.MoreSpaced ds →
      Fields.MemberSpaced (.cons (some key) v fields)
        (keyChars (some key) ++ (as ++ ':' :: (bs ++ (cs ++ ds))))

/-- What follows a member. -/
inductive Fields.MoreSpaced : Fields → List Char → Prop
  | nil {bs : List Char} : Blank bs → Fields.MoreSpaced .nil (bs ++ ['\x7d'])
  | cons {fields : Fields} {as bs cs : List Char} : Blank as → Blank bs → fields.MemberSpaced cs →
      Fields.MoreSpaced fields (as ++ ',' :: (bs ++ cs))

end

variable {cs : List Char}

theorem Items.MoreSpaced.stops {items : Items} (h : items.MoreSpaced cs) {rest : List Char} :
    Stops (cs ++ rest) := by
  cases h with
  | nil hbs =>
      rw [List.append_assoc]
      exact stops_append hbs (stops_cons (by decide))
  | cons has _ _ =>
      rw [List.append_assoc]
      exact stops_append has (stops_cons (by decide))

theorem Fields.MoreSpaced.stops {fields : Fields} (h : fields.MoreSpaced cs) {rest : List Char} :
    Stops (cs ++ rest) := by
  cases h with
  | nil hbs =>
      rw [List.append_assoc]
      exact stops_append hbs (stops_cons (by decide))
  | cons has _ _ =>
      rw [List.append_assoc]
      exact stops_append has (stops_cons (by decide))

/-- A value begins with a character that is no blank and closes no array. -/
theorem Json.Spaced.exists_cons {j : Json} (h : j.Spaced cs) :
    ∃ c rest, cs = c :: rest ∧ isBlank c = false ∧ c ≠ ']' := by
  cases h with
  | natural n =>
      obtain ⟨d, ds, hds, hd⟩ := exists_toDigits_eq n
      refine ⟨d, ds, ?_, isBlank_of_isDigit hd, ne_of_isDigit hd (by decide)⟩
      rw [numberChars, toList_toString, hds]
  | _ => exact ⟨_, _, rfl, by decide, by decide⟩

theorem Items.ElementSpaced.exists_cons {items : Items} (h : items.ElementSpaced cs) :
    ∃ c rest, cs = c :: rest ∧ isBlank c = false ∧ c ≠ ']' := by
  obtain ⟨hj, -⟩ := h
  obtain ⟨c, rest, rfl, hc, hclose⟩ := hj.exists_cons
  exact ⟨c, _, rfl, hc, hclose⟩

theorem Fields.MemberSpaced.exists_cons {fields : Fields} (h : fields.MemberSpaced cs) :
    ∃ rest, cs = '"' :: rest := by
  obtain ⟨-, -, -, -⟩ := h
  exact ⟨_, rfl⟩

theorem Items.MoreSpaced.length_pos {items : Items} (h : items.MoreSpaced cs) : 0 < cs.length := by
  cases h <;> grind

theorem Fields.MoreSpaced.length_pos {fields : Fields} (h : fields.MoreSpaced cs) :
    0 < cs.length := by
  cases h <;> grind

theorem Json.Spaced.length_pos {j : Json} (h : j.Spaced cs) : 0 < cs.length := by
  obtain ⟨c, rest, rfl, -, -⟩ := h.exists_cons
  exact Nat.succ_pos _

end Spacing

section Descent

variable {fuel : Nat} {cs next after rest : List Char} {c : Char}

theorem readValue_digit (h : skipBlank cs = c :: rest) (hc : isDigit c = true) :
    readValue (fuel + 1) cs = leafOf .num (readNumber (c :: rest)) := by
  rw [readValue, h]
  split <;> rename_i heq <;> cases heq <;> try cases hc
  exact if_pos (Or.inr hc)

theorem readItems_of_skipBlank (h : skipBlank cs = c :: next) (hc : c ≠ ']') :
    readItems (fuel + 1) cs = readElement fuel (c :: next) := by
  rw [readItems, h]
  split <;> rename_i heq
  · cases heq
  · exact absurd (List.cons.inj heq).1 hc
  · rfl

theorem readMoreItems_of_skipBlank (h : skipBlank cs = ',' :: after)
    (hafter : skipBlank after = c :: next) (hc : c ≠ ']') :
    readMoreItems (fuel + 1) cs = readElement fuel (c :: next) := by
  rw [readMoreItems, h]
  simp only [hafter]
  split <;> rename_i heq
  · exact absurd (List.cons.inj heq).1 hc
  · rfl

theorem readElement_of_readValue {j : Json} {items : Items} {out : Option (List Char)}
    (hvalue : readValue fuel cs = (j, some rest)) (hmore : readMoreItems fuel rest = (items, out)) :
    readElement (fuel + 1) cs = (.cons j items, out) := by
  rw [readElement, hvalue]
  simp only [hmore]

theorem readFields_of_skipBlank (h : skipBlank cs = c :: next) (hc : c ≠ '\x7d') :
    readFields (fuel + 1) cs = readMember fuel (c :: next) := by
  rw [readFields, h]
  split <;> rename_i heq
  · cases heq
  · exact absurd (List.cons.inj heq).1 hc
  · rfl

theorem readMoreFields_of_skipBlank (h : skipBlank cs = ',' :: after)
    (hafter : skipBlank after = c :: next) :
    readMoreFields (fuel + 1) cs = readMember fuel (c :: next) := by
  rw [readMoreFields, h]
  simp only [hafter]

theorem readMember_of_readValue {key : Literal} {v : Json} {fields : Fields}
    {out : Option (List Char)} (hkey : readLiteral fuel cs = .ok (key, next))
    (hcolon : skipBlank next = ':' :: after) (hvalue : readValue fuel after = (v, some rest))
    (hmore : readMoreFields fuel rest = (fields, out)) :
    readMember (fuel + 1) ('"' :: cs) = (.cons key v fields, out) := by
  rw [readMember, hkey]
  simp only [hcolon, hvalue, hmore]

end Descent

section RoundTrip

/-- A value is read back from its place in any text. -/
def Json.ReadsBack (text : List Char) (j : Json) : Prop :=
  ∀ {fuel : Nat} {cs rest : List Char}, skipBlank cs = text ++ rest → Stops rest →
    2 * text.length ≤ fuel → readValue fuel cs = (j, some rest)

/-- A part of a container is read back from its place in any text.  It takes two steps of descent
for each character, and some to spare. -/
def ReadsPart {α : Type} (read : Nat → List Char → α × Option (List Char)) (spare : Nat)
    (text : List Char) (a : α) : Prop :=
  ∀ {fuel : Nat} (rest : List Char), 2 * text.length + spare ≤ fuel →
    read fuel (text ++ rest) = (a, some rest)

section Values

/-- A keyword is read in one step. -/
theorem Json.readsBack_of_step {text : List Char} {j : Json} (htext : 0 < text.length)
    (h : ∀ {fuel : Nat} {cs rest : List Char}, skipBlank cs = text ++ rest →
      readValue (fuel + 1) cs = (j, some rest)) : j.ReadsBack text := by
  intro fuel cs rest hcs _ hfuel
  match fuel, (show 1 ≤ fuel by omega) with
  | fuel + 1, _ => exact h hcs

theorem Json.readsBack_num (n : Nat) :
    (Json.num (.natural n)).ReadsBack (numberChars (.natural n)) := by
  intro fuel cs rest hcs hrest hfuel
  obtain ⟨d, ds, hds, hd⟩ := exists_toDigits_eq n
  have hread := readNumber_natural n hrest
  rw [numberChars, toList_toString] at hcs hfuel
  rw [hds] at hcs hfuel hread
  cases fuel with
  | zero =>
      rw [List.length_cons] at hfuel
      omega
  | succ fuel =>
      rw [List.cons_append] at hcs hread
      rw [readValue_digit hcs hd, hread]
      rfl

theorem Json.readsBack_str (s : String) : (Json.str (some s)).ReadsBack (keyChars (some s)) := by
  intro fuel cs rest hcs _ hfuel
  obtain ⟨text, htext⟩ := exists_keyChars_eq (some s)
  have hpos : 0 < (keyChars (some s)).length := by simp [htext]
  cases fuel with
  | zero => omega
  | succ fuel =>
      obtain ⟨text, htext, hkey⟩ := readLiteral_keyChars fuel rest s (by omega)
      rw [htext] at hcs
      simp [readValue, hcs, hkey, leafOf]

theorem Json.readsBack_arr {items : Items} {text : List Char}
    (h : ReadsPart readItems 1 text items) : (Json.arr items).ReadsBack ('[' :: text) := by
  intro fuel cs rest hcs _ hfuel
  rw [List.length_cons] at hfuel
  cases fuel with
  | zero => omega
  | succ fuel =>
      rw [readValue, hcs]
      simp only [List.cons_append, h rest (show 2 * text.length + 1 ≤ fuel by omega)]

theorem Json.readsBack_obj {fields : Fields} {text : List Char}
    (h : ReadsPart readFields 1 text fields) : (Json.obj fields).ReadsBack ('\x7b' :: text) := by
  intro fuel cs rest hcs _ hfuel
  rw [List.length_cons] at hfuel
  cases fuel with
  | zero => omega
  | succ fuel =>
      rw [readValue, hcs]
      simp only [List.cons_append, h rest (show 2 * text.length + 1 ≤ fuel by omega)]

end Values

section Elements

variable {items : Items} {as bs cs ds : List Char}

theorem readsBack_items_nil (hbs : Blank bs) : ReadsPart readItems 1 (bs ++ [']']) .nil := by
  intro fuel rest hfuel
  cases fuel with
  | zero => omega
  | succ fuel =>
      have hskip : skipBlank (bs ++ ']' :: rest) = ']' :: rest := skipBlank_append hbs (by decide)
      simp [readItems, hskip]

theorem readsBack_items_cons (hbs : Blank bs) (h : items.ElementSpaced cs)
    (hread : ReadsPart readElement 0 cs items) : ReadsPart readItems 1 (bs ++ cs) items := by
  intro fuel rest hfuel
  obtain ⟨c, text, rfl, hc, hclose⟩ := h.exists_cons
  rw [List.length_append] at hfuel
  cases fuel with
  | zero => omega
  | succ fuel =>
      have hskip : skipBlank (bs ++ (c :: text ++ rest)) = c :: (text ++ rest) :=
        skipBlank_append hbs hc
      rw [List.append_assoc, readItems_of_skipBlank hskip hclose]
      exact hread rest (by omega)

theorem readsBack_element {j : Json} (hj : j.Spaced cs) (h : items.MoreSpaced ds)
    (hvalue : j.ReadsBack cs) (hmore : ReadsPart readMoreItems 1 ds items) :
    ReadsPart readElement 0 (cs ++ ds) (.cons j items) := by
  intro fuel rest hfuel
  have hjpos := hj.length_pos
  have hpos := h.length_pos
  obtain ⟨c, text, rfl, hc, -⟩ := hj.exists_cons
  rw [List.length_append] at hfuel
  cases fuel with
  | zero => omega
  | succ fuel =>
      have hskip : skipBlank (c :: text ++ (ds ++ rest)) = c :: text ++ (ds ++ rest) :=
        skipBlank_of_not_isBlank hc
      rw [List.append_assoc]
      exact readElement_of_readValue (hvalue hskip h.stops (by omega)) (hmore rest (by omega))

theorem readsBack_moreItems_nil (hbs : Blank bs) :
    ReadsPart readMoreItems 1 (bs ++ [']']) .nil := by
  intro fuel rest hfuel
  cases fuel with
  | zero => omega
  | succ fuel =>
      have hskip : skipBlank (bs ++ ']' :: rest) = ']' :: rest := skipBlank_append hbs (by decide)
      simp [readMoreItems, hskip]

theorem readsBack_moreItems_cons (has : Blank as) (hbs : Blank bs) (h : items.ElementSpaced cs)
    (hread : ReadsPart readElement 0 cs items) :
    ReadsPart readMoreItems 1 (as ++ ',' :: (bs ++ cs)) items := by
  intro fuel rest hfuel
  obtain ⟨c, text, rfl, hc, hclose⟩ := h.exists_cons
  simp only [List.length_append, List.length_cons] at hfuel
  cases fuel with
  | zero => omega
  | succ fuel =>
      have hcomma : skipBlank (as ++ ',' :: (bs ++ (c :: text ++ rest))) =
          ',' :: (bs ++ (c :: text ++ rest)) := skipBlank_append has (by decide)
      have hskip : skipBlank (bs ++ (c :: text ++ rest)) = c :: (text ++ rest) :=
        skipBlank_append hbs hc
      rw [List.append_assoc, List.cons_append, List.append_assoc,
        readMoreItems_of_skipBlank hcomma hskip hclose]
      refine hread rest ?_
      rw [List.length_cons]
      omega

end Elements

section Members

variable {fields : Fields} {as bs cs ds : List Char}

theorem readsBack_fields_nil (hbs : Blank bs) : ReadsPart readFields 1 (bs ++ ['\x7d']) .nil := by
  intro fuel rest hfuel
  cases fuel with
  | zero => omega
  | succ fuel =>
      have hskip : skipBlank (bs ++ '\x7d' :: rest) = '\x7d' :: rest :=
        skipBlank_append hbs (by decide)
      simp [readFields, hskip]

theorem readsBack_fields_cons (hbs : Blank bs) (h : fields.MemberSpaced cs)
    (hread : ReadsPart readMember 0 cs fields) : ReadsPart readFields 1 (bs ++ cs) fields := by
  intro fuel rest hfuel
  obtain ⟨text, rfl⟩ := h.exists_cons
  rw [List.length_append] at hfuel
  cases fuel with
  | zero => omega
  | succ fuel =>
      have hskip : skipBlank (bs ++ ('"' :: text ++ rest)) = '"' :: (text ++ rest) :=
        skipBlank_append hbs (by decide)
      rw [List.append_assoc, readFields_of_skipBlank hskip (by decide)]
      exact hread rest (by omega)

theorem readsBack_member {key : String} {v : Json} (has : Blank as) (hbs : Blank bs)
    (hv : v.Spaced cs) (h : fields.MoreSpaced ds) (hvalue : v.ReadsBack cs)
    (hmore : ReadsPart readMoreFields 1 ds fields) :
    ReadsPart readMember 0 (keyChars (some key) ++ (as ++ ':' :: (bs ++ (cs ++ ds))))
      (.cons (some key) v fields) := by
  intro fuel rest hfuel
  have hvpos := hv.length_pos
  have hpos := h.length_pos
  obtain ⟨c, text, rfl, hc, -⟩ := hv.exists_cons
  simp only [List.length_append, List.length_cons] at hfuel hvpos
  cases fuel with
  | zero => omega
  | succ fuel =>
      obtain ⟨after, hafter, hkey⟩ := readLiteral_keyChars fuel
        (as ++ ':' :: (bs ++ (c :: text ++ (ds ++ rest)))) key (by omega)
      have hcolon : skipBlank (as ++ ':' :: (bs ++ (c :: text ++ (ds ++ rest)))) =
          ':' :: (bs ++ (c :: text ++ (ds ++ rest))) := skipBlank_append has (by decide)
      have hskip : skipBlank (bs ++ (c :: text ++ (ds ++ rest))) = c :: text ++ (ds ++ rest) :=
        skipBlank_append hbs hc
      have hread := readMember_of_readValue hkey hcolon
        (hvalue hskip h.stops (by rw [List.length_cons]; omega)) (hmore rest (by omega))
      rw [← hafter] at hread
      simpa only [List.append_assoc, List.cons_append] using hread

theorem readsBack_moreFields_nil (hbs : Blank bs) :
    ReadsPart readMoreFields 1 (bs ++ ['\x7d']) .nil := by
  intro fuel rest hfuel
  cases fuel with
  | zero => omega
  | succ fuel =>
      have hskip : skipBlank (bs ++ '\x7d' :: rest) = '\x7d' :: rest :=
        skipBlank_append hbs (by decide)
      simp [readMoreFields, hskip]

theorem readsBack_moreFields_cons (has : Blank as) (hbs : Blank bs) (h : fields.MemberSpaced cs)
    (hread : ReadsPart readMember 0 cs fields) :
    ReadsPart readMoreFields 1 (as ++ ',' :: (bs ++ cs)) fields := by
  intro fuel rest hfuel
  obtain ⟨text, rfl⟩ := h.exists_cons
  simp only [List.length_append, List.length_cons] at hfuel
  cases fuel with
  | zero => omega
  | succ fuel =>
      have hcomma : skipBlank (as ++ ',' :: (bs ++ ('"' :: text ++ rest))) =
          ',' :: (bs ++ ('"' :: text ++ rest)) := skipBlank_append has (by decide)
      have hskip : skipBlank (bs ++ ('"' :: text ++ rest)) = '"' :: (text ++ rest) :=
        skipBlank_append hbs (by decide)
      rw [List.append_assoc, List.cons_append, List.append_assoc,
        readMoreFields_of_skipBlank hcomma hskip]
      refine hread rest ?_
      rw [List.length_cons]
      omega

end Members

mutual

/-- A value is read from any text that has its tokens. -/
theorem Json.Spaced.readsBack {j : Json} {text : List Char} : j.Spaced text → j.ReadsBack text
  | .null => Json.readsBack_of_step (by decide) fun hcs => by
      simp [readValue, hcs, readKeyword, keywordOf]
  | .yes => Json.readsBack_of_step (by decide) fun hcs => by
      simp [readValue, hcs, readKeyword, keywordOf]
  | .no => Json.readsBack_of_step (by decide) fun hcs => by
      simp [readValue, hcs, readKeyword, keywordOf]
  | .natural n => Json.readsBack_num n
  | .str s => Json.readsBack_str s
  | .arr h => Json.readsBack_arr h.readsBack
  | .obj h => Json.readsBack_obj h.readsBack

theorem Items.Spaced.readsBack {items : Items} {text : List Char} :
    items.Spaced text → ReadsPart readItems 1 text items
  | .nil hbs => readsBack_items_nil hbs
  | .cons hbs h => readsBack_items_cons hbs h h.readsBack

theorem Items.ElementSpaced.readsBack {items : Items} {text : List Char} :
    items.ElementSpaced text → ReadsPart readElement 0 text items
  | .intro hj h => readsBack_element hj h hj.readsBack h.readsBack

theorem Items.MoreSpaced.readsBack {items : Items} {text : List Char} :
    items.MoreSpaced text → ReadsPart readMoreItems 1 text items
  | .nil hbs => readsBack_moreItems_nil hbs
  | .cons has hbs h => readsBack_moreItems_cons has hbs h h.readsBack

theorem Fields.Spaced.readsBack {fields : Fields} {text : List Char} :
    fields.Spaced text → ReadsPart readFields 1 text fields
  | .nil hbs => readsBack_fields_nil hbs
  | .cons hbs h => readsBack_fields_cons hbs h h.readsBack

theorem Fields.MemberSpaced.readsBack {fields : Fields} {text : List Char} :
    fields.MemberSpaced text → ReadsPart readMember 0 text fields
  | .intro has hbs hv h => readsBack_member has hbs hv h hv.readsBack h.readsBack

theorem Fields.MoreSpaced.readsBack {fields : Fields} {text : List Char} :
    fields.MoreSpaced text → ReadsPart readMoreFields 1 text fields
  | .nil hbs => readsBack_moreFields_nil hbs
  | .cons has hbs h => readsBack_moreFields_cons has hbs h h.readsBack

end

/-- The tokens of a value are read as the value, wherever blanks stand. -/
theorem Json.read_spaced {j : Json} {as bs cs : List Char} (h : j.Spaced cs) (has : Blank as)
    (hbs : Blank bs) : Json.read (String.ofList (as ++ (cs ++ bs))) = (j, false) := by
  obtain ⟨c, text, rfl, hc, -⟩ := h.exists_cons
  have hskip : skipBlank (as ++ (c :: text ++ bs)) = c :: text ++ bs := skipBlank_append has hc
  have hstops : Stops bs := by
    rw [← List.append_nil bs]
    exact stops_append hbs trivial
  have hread := h.readsBack hskip hstops
    (show _ ≤ readFuel (as ++ (c :: text ++ bs)) by simp only [readFuel, List.length_append]; omega)
  have hend : skipBlank bs = [] := by
    rw [skipBlank, ← List.append_nil bs, List.dropWhile_append_of_pos hbs, List.dropWhile_nil]
  simp only [Json.read, String.toList_ofList, hread, hend]
  rfl

end RoundTrip

section Layouts

section Tight

variable {items : Items} {fields : Fields} {cs ds : List Char}

theorem Items.ElementSpaced.spaced (h : items.ElementSpaced cs) : items.Spaced cs :=
  @Items.Spaced.cons items [] cs .nil h

theorem Items.ElementSpaced.moreSpaced (h : items.ElementSpaced cs) :
    items.MoreSpaced (',' :: cs) :=
  @Items.MoreSpaced.cons items [] [] cs .nil .nil h

theorem Fields.MemberSpaced.spaced (h : fields.MemberSpaced cs) : fields.Spaced cs :=
  @Fields.Spaced.cons fields [] cs .nil h

theorem Fields.MemberSpaced.moreSpaced (h : fields.MemberSpaced cs) :
    fields.MoreSpaced (',' :: cs) :=
  @Fields.MoreSpaced.cons fields [] [] cs .nil .nil h

theorem Fields.memberSpaced_tight {key : String} {v : Json} (hv : v.Spaced cs)
    (h : fields.MoreSpaced ds) :
    (Fields.cons (some key) v fields).MemberSpaced (keyChars (some key) ++ ':' :: (cs ++ ds)) :=
  @Fields.MemberSpaced.intro key v fields [] [] cs ds .nil .nil hv h

end Tight

mutual

theorem Json.spaced_chars : ∀ j : Json, j.isPlain = true → j.Spaced j.chars
  | .null, _ => .null
  | .bool true, _ => .yes
  | .bool false, _ => .no
  | .num (.natural n), _ => .natural n
  | .str (some s), _ => .str s
  | .arr items, h => .arr (Items.spaced_chars items h)
  | .obj fields, h => .obj (Fields.spaced_chars fields h)

theorem Items.spaced_chars :
    ∀ items : Items, items.isPlain = true → items.Spaced (items.chars ++ [']'])
  | .nil, _ => .nil .nil
  | .cons j rest, h => by
      rw [Items.isPlain, Bool.and_eq_true] at h
      rw [Items.chars, List.append_assoc]
      exact (Items.ElementSpaced.intro (Json.spaced_chars j h.1)
        (Items.moreSpaced_chars rest h.2)).spaced

theorem Items.moreSpaced_chars : ∀ items : Items, items.isPlain = true →
    items.MoreSpaced (items.moreChars ++ [']'])
  | .nil, _ => .nil .nil
  | .cons j rest, h => by
      rw [Items.isPlain, Bool.and_eq_true] at h
      rw [Items.moreChars, List.append_assoc]
      exact (Items.ElementSpaced.intro (Json.spaced_chars j h.1)
        (Items.moreSpaced_chars rest h.2)).moreSpaced

theorem Fields.spaced_chars : ∀ fields : Fields, fields.isPlain = true →
    fields.Spaced (fields.chars ++ ['\x7d'])
  | .nil, _ => .nil .nil
  | .cons (some key) v rest, h => by
      rw [Fields.isPlain, Bool.and_eq_true, Bool.and_eq_true] at h
      rw [Fields.chars, List.append_assoc, List.append_assoc]
      exact (Fields.memberSpaced_tight (Json.spaced_chars v h.1.2)
        (Fields.moreSpaced_chars rest h.2)).spaced

theorem Fields.moreSpaced_chars : ∀ fields : Fields, fields.isPlain = true →
    fields.MoreSpaced (fields.moreChars ++ ['\x7d'])
  | .nil, _ => .nil .nil
  | .cons (some key) v rest, h => by
      rw [Fields.isPlain, Bool.and_eq_true, Bool.and_eq_true] at h
      rw [Fields.moreChars, List.append_assoc, List.append_assoc]
      exact (Fields.memberSpaced_tight (Json.spaced_chars v h.1.2)
        (Fields.moreSpaced_chars rest h.2)).moreSpaced

end

mutual

theorem Json.spaced_lines (depth : Nat) : ∀ j : Json, j.isPlain = true → j.Spaced (j.lines depth)
  | .null, _ => .null
  | .bool true, _ => .yes
  | .bool false, _ => .no
  | .num (.natural n), _ => .natural n
  | .str (some s), _ => .str s
  | .arr .nil, _ => .arr (.nil .nil)
  | .arr (.cons j rest), h => by
      rw [Json.isPlain, Items.isPlain, Bool.and_eq_true] at h
      rw [Json.lines, Items.lines]
      simp only [List.cons_append, List.append_assoc]
      exact .arr (.cons (blank_newline _) (.intro (Json.spaced_lines (depth + 1) j h.1)
        (Items.moreSpaced_lines depth rest h.2)))
      all_goals exact nofun
  | .obj .nil, _ => .obj (.nil .nil)
  | .obj (.cons (some key) v rest), h => by
      rw [Json.isPlain, Fields.isPlain, Bool.and_eq_true, Bool.and_eq_true] at h
      rw [Json.lines, Fields.lines]
      simp only [List.cons_append, List.append_assoc]
      exact .obj (.cons (blank_newline _) (.intro .nil blank_space
        (Json.spaced_lines (depth + 1) v h.1.2)
        (Fields.moreSpaced_lines depth rest h.2)))
      all_goals exact nofun

theorem Items.moreSpaced_lines (depth : Nat) : ∀ items : Items, items.isPlain = true →
    items.MoreSpaced (items.moreLines (depth + 1) ++ (newline depth ++ [']']))
  | .nil, _ => .nil (blank_newline depth)
  | .cons j rest, h => by
      rw [Items.isPlain, Bool.and_eq_true] at h
      rw [Items.moreLines]
      simp only [List.cons_append, List.append_assoc]
      exact .cons .nil (blank_newline _) (.intro (Json.spaced_lines (depth + 1) j h.1)
        (Items.moreSpaced_lines depth rest h.2))

theorem Fields.moreSpaced_lines (depth : Nat) : ∀ fields : Fields, fields.isPlain = true →
    fields.MoreSpaced (fields.moreLines (depth + 1) ++ (newline depth ++ ['\x7d']))
  | .nil, _ => .nil (blank_newline depth)
  | .cons (some key) v rest, h => by
      rw [Fields.isPlain, Bool.and_eq_true, Bool.and_eq_true] at h
      rw [Fields.moreLines]
      simp only [List.cons_append, List.append_assoc]
      exact .cons .nil (blank_newline _) (.intro .nil blank_space
        (Json.spaced_lines (depth + 1) v h.1.2)
        (Fields.moreSpaced_lines depth rest h.2))

end

theorem Json.read_compact {j : Json} (h : j.isPlain = true) : Json.read j.compact = (j, false) := by
  have hread := Json.read_spaced (j.spaced_chars h) .nil .nil
  rwa [List.append_nil] at hread

theorem Json.read_pretty {j : Json} (h : j.isPlain = true) : Json.read j.pretty = (j, false) := by
  have hread := Json.read_spaced (j.spaced_lines 0 h) .nil .nil
  rwa [List.append_nil] at hread

end Layouts

end Dataflow
