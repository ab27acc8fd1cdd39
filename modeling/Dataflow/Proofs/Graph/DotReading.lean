import Dataflow.Graph.Dot
import Dataflow.Proofs.Json.Leaves

/-!
# Reading a drawing

A reader for the part of the DOT language that drawings use.  It knows nothing of graphs: it cuts a
text into tokens and the tokens into items.  What stands between quotes is one token, with its
escapes undone, so that no name can end a label or start an item.

**Scanner.**  `Scanner.step` takes one character.  `Scans` joins steps, and each piece of the text
of a statement has a lemma of this form.

**Items.**  `items` collects tokens up to the sign that ends an item.

**Result.**  The text of a drawing is read as one digraph (`read_dot`): some defaults, and for each
statement its items (`itemsOf`).
-/

namespace Dataflow
namespace Dot

section Tokens

/-- Tokens of a text. -/
inductive Token where
  | word (s : String)
  /-- What stands between quotes, with its escapes undone. -/
  | quoted (s : String)
  | sign (c : Char)
deriving DecidableEq, Repr

/-- Where the reader of a text is, with the characters of the token that it is in. -/
inductive Scanner where
  | between
  | word (met : List Char)
  | quoted (met : List Char)
  /-- Between quotes, after a backslash. -/
  | escaped (met : List Char)
deriving DecidableEq, Repr

/-- Characters of words. -/
def isWordChar (c : Char) : Bool := c.isAlphanum || c = '_'

/-- What a backslash and a character stand for between quotes. -/
def unescape? : Char → Option Char
  | 'n' => some '\n'
  | '"' => some '"'
  | '\\' => some '\\'
  | _ => none

namespace Scanner

/-- A character that belongs to no token yet. -/
def start (c : Char) : Option (List Token × Scanner) :=
  if isWordChar c then some ([], word [c])
  else if c = '"' then some ([], quoted [])
  else if c = ' ' ∨ c = '\n' then some ([], between)
  else if c ∈ ['\x7b', '\x7d', '[', ']', ';', ',', '=', '-', '>'] then some ([.sign c], between)
  else none

/-- Take a character: the tokens that it completes, and where the reader is then. -/
def step : Scanner → Char → Option (List Token × Scanner)
  | between, c => start c
  | word met, c =>
      if isWordChar c then some ([], word (met ++ [c]))
      else (start c).map fun r => (.word (String.ofList met) :: r.1, r.2)
  | quoted met, c =>
      if c = '"' then some ([.quoted (String.ofList met)], between)
      else if c = '\\' then some ([], escaped met)
      else some ([], quoted (met ++ [c]))
  | escaped met, c => (unescape? c).map fun d => ([], quoted (met ++ [d]))

/-- Take the characters of a text. -/
def run : Scanner → List Char → Option (List Token × Scanner)
  | s, [] => some ([], s)
  | s, c :: cs => do
      let (tokens, s) ← s.step c
      let (more, s) ← s.run cs
      return (tokens ++ more, s)

end Scanner

/-- The tokens of a text. -/
def tokens (text : String) : Option (List Token) :=
  match Scanner.between.run text.toList with
  | some (tokens, .between) => some tokens
  | _ => none

end Tokens

section Items

/-- Items of a text. -/
inductive Item where
  /-- The start of a graph. -/
  | digraph (name : String)
  /-- The start of a cluster. -/
  | subgraph (name : String)
  /-- The end of a graph or of a cluster. -/
  | close
  | setting (key value : String)
  | defaults (sort : String) (attributes : List (String × String))
  | node (name : String) (attributes : List (String × String))
  | edge (src dst : String) (attributes : List (String × String))
deriving DecidableEq, Repr

/-- The value of an attribute. -/
def Token.value? : Token → Option String
  | word s => some s
  | quoted s => some s
  | sign _ => none

/-- Attributes with commas between them, up to the bracket. -/
def attributes : List Token → Option (List (String × String))
  | [.word key, .sign '=', value, .sign ']'] => do
      return [(key, ← value.value?)]
  | .word key :: .sign '=' :: value :: .sign ',' :: rest => do
      return (key, ← value.value?) :: (← attributes rest)
  | _ => none

/-- Attributes in brackets, if there are any. -/
def brackets : List Token → Option (List (String × String))
  | [] => some []
  | .sign '[' :: rest => attributes rest
  | _ => none

/-- Names that no node may have. -/
def isKeyword (name : String) : Bool := name ∈ ["graph", "node", "edge"]

/-- An item that ends in a semicolon. -/
def statement : List Token → Option Item
  | [.word key, .sign '=', value] => value.value?.map (.setting key)
  | .word src :: .sign '-' :: .sign '>' :: .word dst :: rest => (brackets rest).map (.edge src dst)
  | .word name :: rest =>
      (brackets rest).map (if isKeyword name then .defaults name else .node name)
  | _ => none

/-- An item that ends in an opening brace. -/
def opening : List Token → Option Item
  | [.word "digraph", .word name] => some (.digraph name)
  | [.word "subgraph", .word name] => some (.subgraph name)
  | _ => none

/-- Whether a token ends an item. -/
def Token.isEnd : Token → Bool
  | sign c => c = ';' || c = '\x7b' || c = '\x7d'
  | _ => false

/-- The item that some tokens make with the one that ends it. -/
def itemOf (met : List Token) : Token → Option Item
  | .sign ';' => statement met
  | .sign '\x7b' => opening met
  | .sign '\x7d' => if met = [] then some .close else none
  | _ => none

/-- Items one after the other, with the tokens of the first that were met. -/
def items : List Token → List Token → Option (List Item)
  | met, [] => if met = [] then some [] else none
  | met, t :: rest =>
      if t.isEnd then (itemOf met t).bind fun item => (items [] rest).map (item :: ·)
      else items (met ++ [t]) rest

/-- The items of a text. -/
def read (text : String) : Option (List Item) := tokens text >>= items []

end Items

section Views

namespace Item

/-- The node that an item shows, with its label. -/
def node? : Item → Option (String × Option String)
  | node name attributes => some (name, attributes.lookup "label")
  | _ => none

/-- The cluster that an item opens. -/
def subgraph? : Item → Option String
  | subgraph name => some name
  | _ => none

/-- The edge that an item shows: its ends and its attributes. -/
def edge? : Item → Option (String × String × List (String × String))
  | edge src dst attributes => some (src, dst, attributes)
  | _ => none

/-- Whether an item ends in a brace. -/
def isBrace : Item → Bool
  | digraph _ | subgraph _ | close => true
  | _ => false

/-- The open clusters after an item, innermost first. -/
def openAfter (stack : List String) : Item → List String
  | subgraph name => name :: stack
  | close => stack.tail
  | _ => stack

end Item

/-- The open clusters after some items, innermost first. -/
def openNames (stack : List String) (items : List Item) : List String :=
  items.foldl Item.openAfter stack

/-- Every cluster that is opened is closed, after those inside it, and nothing else is. -/
inductive Nested : List Item → Prop
  | nil :
      Nested []
  | cons {item : Item} {rest : List Item} :
      item.isBrace = false →
      Nested rest →
      Nested (item :: rest)
  | cluster {name : String} {inner rest : List Item} :
      Nested inner →
      Nested rest →
      Nested (.subgraph name :: (inner ++ .close :: rest))

end Views

section Names

/-- How a drawing names a node. -/
def nodeName (id : NodeId) : String := "n" ++ toString id.val.toNat

/-- How a drawing names the cluster of a container. -/
def clusterName (id : NodeId) : String := "cluster_n" ++ toString id.val.toNat

/-- What the label of a leaf says. -/
def caption (n : Node) : String :=
  match n.kind with
  | .rateInput change => n.name ++ "\n" ++ change.text
  | .rateOutput change => n.name ++ "\n" ++ change.text
  | .channel spec =>
      n.name ++ "\ncap=" ++ toString spec.capacity.toNat ++ " block="
        ++ toString spec.blockSize.toNat
  | .externalIo ep => n.name ++ "\n" ++ ep.bundle ++ "[" ++ toString ep.member.toNat ++ "]"
  | _ => n.name

/-- What the label of a cluster says. -/
def title (n : Node) : String :=
  match n.kind with
  | .clockDomain rate _ _ => "domain: " ++ n.name ++ " (" ++ toString rate ++ ")"
  | _ => "subsystem: " ++ n.name

/-- An item shows a node: it is a node of its name, or opens the cluster of its name. -/
def Item.Shows (id : NodeId) : Item → Prop
  | node name _ => name = nodeName id
  | subgraph name => name = clusterName id
  | _ => False

/-- How an arc is drawn: with its type, and bold and red at a channel. -/
def edgeAttributes (ty : Option ElemType) (channel : Bool) : List (String × String) :=
  (ty.map fun t => ("label", toString t)).toList ++
    if channel then [("style", "bold"), ("color", "red")] else []

/-- The items of a statement. -/
def itemsOf : DotStatement → List Item
  | .leaf _ id n =>
      [.node (nodeName id) [("label", caption n), ("shape", leafShape n.kind), ("style", "filled"),
        ("fillcolor", fillColour n.partition)]]
  | .enter _ id n =>
      [.subgraph (clusterName id), .setting "label" (title n),
        .setting "style" (clusterStyle n).2.1, .setting "color" (clusterStyle n).2.2]
  | .leave .. => [.close]
  | .edge src dst ty channel => [.edge (nodeName src) (nodeName dst) (edgeAttributes ty channel)]

/-- What a drawing sets before it shows anything. -/
def preamble : List Item :=
  [.setting "rankdir" "LR",
    .defaults "node" [("fontname", "Helvetica"), ("fontsize", "10")],
    .defaults "edge" [("fontname", "Helvetica"), ("fontsize", "9")]]

theorem toNat_val_injective : Function.Injective fun id : NodeId => id.val.toNat := by
  rintro ⟨a⟩ ⟨b⟩ h
  exact congrArg NodeId.mk (UInt32.toNat_inj.mp h)

theorem toString_injective : Function.Injective fun n : Nat => toString n := by
  intro m n h
  have hdigits : Nat.toDigits 10 m = Nat.toDigits 10 n := by
    rw [← toList_toString, ← toList_toString]
    exact congrArg String.toList h
  rw [← digitsValue_toDigits m, hdigits, digitsValue_toDigits]

theorem append_number_injective (letters : String) :
    Function.Injective fun id : NodeId => letters ++ toString id.val.toNat := by
  intro a b h
  exact toNat_val_injective (toString_injective ((String.append_right_inj _).mp h))

theorem nodeName_injective : Function.Injective nodeName := append_number_injective "n"

theorem clusterName_injective : Function.Injective clusterName :=
  append_number_injective "cluster_n"

end Names

section Scanning

variable {s s' s'' : Scanner} {text more : String} {ts us : List Token}

/-- From one place to another a text gives these tokens. -/
def Scans (s : Scanner) (text : String) (tokens : List Token) (s' : Scanner) : Prop :=
  s.run text.toList = some (tokens, s')

theorem run_append {cs ds : List Char} (h : s.run cs = some (ts, s'))
    (h' : s'.run ds = some (us, s'')) : s.run (cs ++ ds) = some (ts ++ us, s'') := by
  induction cs generalizing s ts with
  | nil =>
      cases h
      exact h'
  | cons c cs ih =>
      simp only [Scanner.run, Option.bind_eq_bind, Option.bind_eq_some_iff] at h
      obtain ⟨⟨first, mid⟩, hstep, ⟨rest, last⟩, hrun, heq⟩ := h
      cases heq
      simp [Scanner.run, hstep, ih hrun]

theorem Scans.append (h : Scans s text ts s') (h' : Scans s' more us s'') :
    Scans s (text ++ more) (ts ++ us) s'' := by
  rw [Scans, String.toList_append]
  exact run_append h h'

/-- The characters of a text that each stay in the token. -/
theorem scans_of_forall {place : List Char → Scanner} (met : List Char)
    (hmet : ∀ met, ∀ c ∈ text.toList, (place met).step c = some ([], place (met ++ [c]))) :
    Scans (place met) text [] (place (met ++ text.toList)) := by
  rw [Scans]
  generalize text.toList = cs at hmet
  induction cs generalizing met with
  | nil => simp [Scanner.run]
  | cons c cs ih =>
      rw [Scanner.run, hmet met c List.mem_cons_self]
      simp [ih _ fun met d hd => hmet met d (List.mem_cons_of_mem _ hd)]

theorem isWordChar_of_mem_toString {n : Nat} {c : Char} (h : c ∈ (toString n).toList) :
    isWordChar c = true := by
  rw [toList_toString] at h
  have hdigit := Nat.isDigit_of_mem_toDigits (by decide) (by decide) h
  simp [isWordChar, Char.isAlphanum, hdigit]

theorem scans_number (met : List Char) (n : Nat) :
    Scans (.word met) (toString n) [] (.word (met ++ (toString n).toList)) :=
  scans_of_forall met fun _ _ hc => if_pos (isWordChar_of_mem_toString hc)

/-- A text that means itself between quotes. -/
def Plain (text : String) : Prop := (text.toList.all fun c => c ≠ '"' && c ≠ '\\') = true

theorem Plain.append (h : Plain text) (h' : Plain more) : Plain (text ++ more) := by
  rw [Plain, String.toList_append, List.all_append, Bool.and_eq_true]
  exact ⟨h, h'⟩

theorem plain_toString (n : Nat) : Plain (toString n) := by
  refine List.all_eq_true.mpr fun c hc => ?_
  have hword := isWordChar_of_mem_toString hc
  simp only [ne_eq, Bool.and_eq_true, decide_eq_true_eq]
  constructor <;> (rintro rfl; cases hword)

theorem plain_intercalate {sep : String} (hsep : Plain sep) {l : List String}
    (hl : ∀ text ∈ l, Plain text) : Plain (sep.intercalate l) := by
  induction l with
  | nil => exact (rfl : Plain "")
  | cons text l ih =>
      obtain ⟨htext, hrest⟩ := List.forall_mem_cons.mp hl
      by_cases hnil : l = []
      · subst hnil
        exact htext
      · rw [String.intercalate_cons_of_ne_nil hnil]
        exact (htext.append hsep).append (ih hrest)

theorem plain_rate (rate : Rate) : Plain (toString rate) :=
  ((plain_toString _).append (rfl : Plain "/")).append (plain_toString _)

theorem plain_rateChange (change : RateChange) : Plain change.text := by
  have hkind : Plain change.kind.text := by
    cases change.kind <;> exact rfl
  exact (hkind.append (rfl : Plain "-by-")).append (plain_toString _)

theorem plain_scalarText (t : ElemType) : Plain t.scalarText := by
  have hint : Plain (if t.signed = true then "i" else "u") := by
    cases t.signed <;> exact rfl
  unfold ElemType.scalarText
  cases t.kind with
  | bool => exact (rfl : Plain "bool")
  | int => exact hint.append (plain_toString _)
  | float => exact Plain.append (rfl : Plain "f") (plain_toString _)
  | complex => exact Plain.append (rfl : Plain "c") (plain_toString _)

theorem plain_elemType (t : ElemType) : Plain (toString t) := by
  have hdims : Plain (",".intercalate (t.dims.map fun d => toString d.toNat)) := by
    refine plain_intercalate (rfl : Plain ",") fun text htext => ?_
    obtain ⟨d, -, rfl⟩ := List.mem_map.mp htext
    exact plain_toString _
  show Plain t.text
  unfold ElemType.text
  split
  · exact plain_scalarText t
  · exact (((plain_scalarText t).append (rfl : Plain "[")).append hdims).append (rfl : Plain "]")

theorem scans_plain (met : List Char) (h : Plain text) :
    Scans (.quoted met) text [] (.quoted (met ++ text.toList)) := by
  refine scans_of_forall met fun _ c hc => ?_
  obtain ⟨hquote, hslash⟩ := Bool.and_eq_true_iff.mp (List.all_eq_true.mp h c hc)
  rw [Scanner.step, if_neg (of_decide_eq_true hquote), if_neg (of_decide_eq_true hslash)]

/-- A name is found again behind its escapes. -/
theorem scans_dotEscape (met : List Char) (name : String) :
    Scans (.quoted met) (dotEscape name) [] (.quoted (met ++ name.toList)) := by
  rw [Scans, dotEscape, String.toList_ofList]
  generalize name.toList = cs
  induction cs generalizing met with
  | nil => simp [Scanner.run]
  | cons c cs ih =>
      have hfirst : (Scanner.quoted met).run
          (if c = '\\' then ['\\', '\\'] else if c = '"' then ['\\', '"'] else [c]) =
            some ([], .quoted (met ++ [c])) := by
        by_cases hslash : c = '\\'
        · subst hslash
          rfl
        · by_cases hquote : c = '"'
          · subst hquote
            rfl
          · simp [Scanner.run, Scanner.step, hslash, hquote]
      rw [List.flatMap_cons, List.append_cons met c cs]
      exact run_append hfirst (ih _)

/-- The end of a word. -/
theorem scans_endWord (word : String)
    (h : ∀ met, Scans (.word met) text (.word (String.ofList met) :: ts) s) :
    Scans (.word word.toList) text (.word word :: ts) s := by
  simpa using h word.toList

/-- The end of what stands between quotes. -/
theorem scans_endQuoted (label : String)
    (h : ∀ met, Scans (.quoted met) text (.quoted (String.ofList met) :: ts) s) :
    Scans (.quoted label.toList) text (.quoted label :: ts) s := by
  simpa using h label.toList

end Scanning

section Labels

theorem scans_newline (met : List Char) :
    Scans (.quoted met) "\\n" [] (.quoted (met ++ ['\n'])) := rfl

/-- The label of a leaf says its caption. -/
theorem scans_leafLabel (n : Node) :
    Scans (.quoted []) (leafLabel n) [] (.quoted (caption n).toList) := by
  have hname := scans_dotEscape [] n.name
  have hsecond := hname.append (scans_newline _)
  unfold leafLabel caption
  cases n.kind with
  | primitive | subsystem | clockDomain => exact hname
  | rateInput change | rateOutput change =>
      have h := hsecond.append (scans_plain _ (plain_rateChange change))
      simpa using h
  | channel spec =>
      have hcap : Scans (.quoted n.name.toList) "\\ncap=" []
          (.quoted (n.name.toList ++ "\ncap=".toList)) := by
        simpa using (scans_newline n.name.toList).append (scans_plain _ (rfl : Plain "cap="))
      have h := (((hname.append hcap).append
        (scans_plain _ (plain_toString spec.capacity.toNat))).append
          (scans_plain _ (rfl : Plain " block="))).append
            (scans_plain _ (plain_toString spec.blockSize.toNat))
      simpa using h
  | externalIo ep =>
      have h := (((hsecond.append (scans_dotEscape _ ep.bundle)).append
        (scans_plain _ (rfl : Plain "["))).append
          (scans_plain _ (plain_toString ep.member.toNat))).append
            (scans_plain _ (rfl : Plain "]"))
      simpa using h

/-- The label of a cluster says its title. -/
theorem scans_clusterStyle (n : Node) :
    Scans (.quoted []) (clusterStyle n).1 [] (.quoted (title n).toList) := by
  have hsubsystem := (scans_plain [] (rfl : Plain "subsystem: ")).append
    (scans_dotEscape _ n.name)
  unfold clusterStyle title
  cases n.kind with
  | clockDomain rate _ _ =>
      have h := ((((scans_plain [] (rfl : Plain "domain: ")).append
        (scans_dotEscape _ n.name)).append (scans_plain _ (rfl : Plain " ("))).append
          (scans_plain _ (plain_rate rate))).append (scans_plain _ (rfl : Plain ")"))
      simpa using h
  | _ => simpa using hsubsystem

end Labels

section Statements

variable {text more : String} {its jts : List Item}

/-- A text is read as these items, whatever comes after it. -/
def Reads (text : String) (its : List Item) : Prop :=
  ∃ ts, Scans .between text ts .between ∧
    ∀ rest, items [] (ts ++ rest) = (items [] rest).map (its ++ ·)

theorem reads_empty : Reads "" [] :=
  ⟨[], rfl, fun rest => by simp⟩

theorem Reads.append (h : Reads text its) (h' : Reads more jts) :
    Reads (text ++ more) (its ++ jts) := by
  obtain ⟨ts, hscan, hitems⟩ := h
  obtain ⟨us, hscan', hitems'⟩ := h'
  refine ⟨ts ++ us, hscan.append hscan', fun rest => ?_⟩
  rw [List.append_assoc, hitems, hitems', Option.map_map]
  simp [Function.comp_def]

theorem Reads.read_eq (h : Reads text its) : read text = some its := by
  obtain ⟨ts, hscan, hitems⟩ := h
  have htokens : tokens text = some ts := by
    rw [tokens, hscan]
  have hend := hitems []
  rw [List.append_nil] at hend
  simp [read, htokens, hend, items]

/-- Tokens that do not end an item are collected. -/
theorem items_append {met ts : List Token} (h : ∀ t ∈ ts, t.isEnd = false) (rest : List Token) :
    items met (ts ++ rest) = items (met ++ ts) rest := by
  induction ts generalizing met with
  | nil => simp
  | cons t ts ih =>
      obtain ⟨ht, hts⟩ := List.forall_mem_cons.mp h
      rw [List.cons_append, items, ht, if_neg Bool.false_ne_true, ih hts, List.append_assoc,
        List.singleton_append]

/-- A text with the tokens of one item. -/
theorem reads_item {ts : List Token} {stop : Token} {item : Item}
    (hscan : Scans .between text (ts ++ [stop]) .between) (hts : ∀ t ∈ ts, t.isEnd = false)
    (hstop : stop.isEnd = true) (hitem : itemOf ts stop = some item) : Reads text [item] := by
  refine ⟨_, hscan, fun rest => ?_⟩
  rw [List.append_assoc, items_append hts, List.nil_append, List.singleton_append, items,
    if_pos hstop, hitem]
  rfl

theorem scans_dotIndent (depth : Nat) : Scans .between (dotIndent depth) [] .between := by
  rw [Scans, dotIndent, String.toList_ofList]
  generalize 4 * (depth + 1) = width
  induction width with
  | zero => rfl
  | succ width ih =>
      have hblank : Scanner.between.run [' '] = some ([], .between) := rfl
      exact run_append hblank ih

theorem scans_append_number {letters : String}
    (h : Scans .between letters [] (.word letters.toList)) (n : Nat) :
    Scans .between (letters ++ toString n) [] (.word (letters ++ toString n).toList) := by
  rw [String.toList_append]
  exact h.append (scans_number _ n)

theorem scans_nodeName (id : NodeId) :
    Scans .between ("n" ++ toString id.val.toNat) [] (.word (nodeName id).toList) :=
  scans_append_number (rfl : Scans .between "n" [] (.word "n".toList)) _

theorem scans_clusterName (id : NodeId) :
    Scans .between ("cluster_n" ++ toString id.val.toNat) [] (.word (clusterName id).toList) :=
  scans_append_number (rfl : Scans .between "cluster_n" [] (.word "cluster_n".toList)) _

theorem leafShape_mem (kind : NodeKind) :
    leafShape kind ∈ ["invtrapezium", "trapezium", "cds", "invhouse", "house", "box"] := by
  cases kind with
  | externalIo ep => cases hdirection : ep.direction <;> simp [leafShape, hdirection]
  | _ => simp [leafShape]

theorem scans_leafShape (kind : NodeKind) :
    Scans .between (leafShape kind) [] (.word (leafShape kind).toList) := by
  have hall : ∀ shape ∈ ["invtrapezium", "trapezium", "cds", "invhouse", "house", "box"],
      Scans .between shape [] (.word shape.toList) := by
    simp only [List.forall_mem_cons]
    exact ⟨rfl, rfl, rfl, rfl, rfl, rfl, List.forall_mem_nil _⟩
  exact hall _ (leafShape_mem kind)

theorem plain_palette (i : Nat) : Plain (palette.getD i "white") := by
  have hall : ∀ colour ∈ palette, Plain colour := by
    simp only [palette, List.forall_mem_cons]
    exact ⟨rfl, rfl, rfl, rfl, rfl, rfl, List.forall_mem_nil _⟩
  rw [List.getD_eq_getElem?_getD]
  cases hi : palette[i]? with
  | none => exact (rfl : Plain "white")
  | some colour => exact hall colour (List.mem_of_getElem? hi)

theorem plain_fillColour (p : Option PartitionId) : Plain (fillColour p) := by
  cases p with
  | none => exact (rfl : Plain "white")
  | some p =>
      rw [fillColour]
      split
      · exact (rfl : Plain "#eeeeee")
      · exact plain_palette _

/-- The second character of a name is a digit. -/
theorem isKeyword_nodeName (id : NodeId) : isKeyword (nodeName id) = false := by
  obtain ⟨d, ds, hdigits, hd⟩ := exists_toDigits_eq id.val.toNat
  have hname : (nodeName id).toList = 'n' :: d :: ds := by
    rw [nodeName, String.toList_append, toList_toString, hdigits]
    rfl
  have hne : ∀ word : String, word.toList[1]?.all isDigit = false → nodeName id ≠ word := by
    rintro word hword rfl
    simp [hname, hd] at hword
  simp only [isKeyword, decide_eq_false_iff_not, List.mem_cons, List.not_mem_nil, not_or]
  exact ⟨hne _ (by decide), hne _ (by decide), hne _ (by decide), not_false⟩

theorem reads_leaf (depth : Nat) (id : NodeId) (n : Node) :
    Reads (DotStatement.leaf depth id n).text (itemsOf (.leaf depth id n)) := by
  have hname : Scans .between (dotIndent depth ++ "n" ++ toString id.val.toNat) []
      (.word (nodeName id).toList) := by
    rw [String.append_assoc]
    exact (scans_dotIndent depth).append (scans_nodeName id)
  have hlabel : Scans (.word (nodeName id).toList) " [label=\""
      [.word (nodeName id), .sign '[', .word "label", .sign '='] (.quoted []) :=
    scans_endWord _ fun _ => rfl
  have hshape : Scans (.quoted (caption n).toList) "\", shape="
      [.quoted (caption n), .sign ',', .word "shape", .sign '='] .between :=
    scans_endQuoted _ fun _ => rfl
  have hstyle : Scans (.word (leafShape n.kind).toList) ", style=filled, fillcolor=\""
      [.word (leafShape n.kind), .sign ',', .word "style", .sign '=', .word "filled", .sign ',',
        .word "fillcolor", .sign '='] (.quoted []) :=
    scans_endWord _ fun _ => rfl
  have hend : Scans (.quoted (fillColour n.partition).toList) "\"];\n"
      ([.quoted (fillColour n.partition), .sign ']'] ++ [.sign ';']) .between :=
    scans_endQuoted _ fun _ => rfl
  have hscan := ((((((hname.append hlabel).append (scans_leafLabel n)).append hshape).append
    (scans_leafShape n.kind)).append hstyle).append
    (scans_plain [] (plain_fillColour n.partition))).append hend
  rw [← List.append_assoc] at hscan
  refine reads_item hscan (by simp [Token.isEnd]) rfl ?_
  simp [itemOf, statement, brackets, attributes, Token.value?, isKeyword_nodeName]

theorem scans_clusterStyle_words (n : Node) :
    Scans .between (clusterStyle n).2.1 [] (.word (clusterStyle n).2.1.toList) ∧
      Scans .between (clusterStyle n).2.2 [] (.word (clusterStyle n).2.2.toList) := by
  have hmem : (clusterStyle n).2 ∈ [("rounded", "blue"), ("dashed", "gray50")] := by
    unfold clusterStyle
    cases n.kind <;> simp
  have hall : ∀ words ∈ [("rounded", "blue"), ("dashed", "gray50")],
      Scans .between words.1 [] (.word words.1.toList) ∧
        Scans .between words.2 [] (.word words.2.toList) := by
    simp only [List.forall_mem_cons]
    exact ⟨⟨rfl, rfl⟩, ⟨rfl, rfl⟩, List.forall_mem_nil _⟩
  exact hall _ hmem

/-- A setting on a line of its own. -/
theorem reads_setting (depth : Nat) {key head value tail val : String} {token : Token}
    {s s' : Scanner} (hkey : Scans .between head [.word key, .sign '='] s)
    (hvalue : Scans s value [] s') (hend : Scans s' tail ([token] ++ [.sign ';']) .between)
    (hval : token.value? = some val) :
    Reads (dotIndent depth ++ head ++ value ++ tail) [.setting key val] := by
  have hscan := (((scans_dotIndent depth).append hkey).append hvalue).append hend
  rw [← List.append_assoc] at hscan
  cases token with
  | sign => cases hval
  | word | quoted =>
      exact reads_item hscan (by simp [Token.isEnd]) rfl (by simp [itemOf, statement, hval])

/-- The line that opens a cluster. -/
theorem reads_opening (depth : Nat) (id : NodeId) :
    Reads (dotIndent depth ++ "subgraph " ++ ("cluster_n" ++ toString id.val.toNat) ++ " \x7b\n")
      [.subgraph (clusterName id)] := by
  have hword : Scans .between "subgraph " [.word "subgraph"] .between := rfl
  have hbrace : Scans (.word (clusterName id).toList) " \x7b\n"
      ([.word (clusterName id)] ++ [.sign '\x7b']) .between :=
    scans_endWord _ fun _ => rfl
  have hscan := (((scans_dotIndent depth).append hword).append (scans_clusterName id)).append hbrace
  rw [← List.append_assoc] at hscan
  exact reads_item hscan (by simp [Token.isEnd]) rfl (by simp [itemOf, opening])

theorem reads_enter (depth : Nat) (id : NodeId) (n : Node) :
    Reads (DotStatement.enter depth id n).text (itemsOf (.enter depth id n)) := by
  obtain ⟨hstyle, hcolour⟩ := scans_clusterStyle_words n
  have hlabelled : Reads (dotIndent (depth + 1) ++ "label=\"" ++ (clusterStyle n).1 ++ "\";\n")
      [.setting "label" (title n)] :=
    reads_setting _ rfl (scans_clusterStyle n) (scans_endQuoted _ fun _ => rfl) rfl
  have hstyled : Reads (dotIndent (depth + 1) ++ "style=" ++ (clusterStyle n).2.1 ++ ";\n")
      [.setting "style" (clusterStyle n).2.1] :=
    reads_setting _ rfl hstyle (scans_endWord _ fun _ => rfl) rfl
  have hcoloured : Reads (dotIndent (depth + 1) ++ "color=" ++ (clusterStyle n).2.2 ++ ";\n")
      [.setting "color" (clusterStyle n).2.2] :=
    reads_setting _ rfl hcolour (scans_endWord _ fun _ => rfl) rfl
  have h := (((reads_opening depth id).append hlabelled).append hstyled).append hcoloured
  have htext : "subgraph cluster_n" = "subgraph " ++ "cluster_n" := rfl
  unfold DotStatement.text
  simp only [htext, String.append_assoc] at h ⊢
  exact h

theorem reads_leave (depth : Nat) (id : NodeId) :
    Reads (DotStatement.leave depth id).text (itemsOf (.leave depth id)) := by
  have hbrace : Scans .between "\x7d\n" ([] ++ [.sign '\x7d']) .between := rfl
  exact reads_item ((scans_dotIndent depth).append hbrace) (by simp) rfl rfl

/-- What stands after the ends of an edge. -/
def edgeTail : Option ElemType → Bool → String
  | none, false => ";\n"
  | none, true => " [style=bold, color=red];\n"
  | some t, false => " [label=\"" ++ toString t ++ "\"];\n"
  | some t, true => " [label=\"" ++ toString t ++ "\", style=bold, color=red];\n"

theorem text_edge (src dst : NodeId) (ty : Option ElemType) (channel : Bool) :
    (DotStatement.edge src dst ty channel).text =
      "    " ++ ("n" ++ toString src.val.toNat) ++ " -> " ++ ("n" ++ toString dst.val.toNat)
        ++ edgeTail ty channel := by
  apply String.toList_injective
  unfold DotStatement.text
  cases ty <;> cases channel <;> simp [edgeTail]

/-- The attributes of an edge, after its ends. -/
theorem scans_edgeTail (name : String) (ty : Option ElemType) (channel : Bool) :
    ∃ ts,
      Scans (.word name.toList) (edgeTail ty channel) (.word name :: ts ++ [.sign ';']) .between ∧
      (∀ t ∈ ts, t.isEnd = false) ∧ brackets ts = some (edgeAttributes ty channel) := by
  have hlabel (t : ElemType) : Scans (.word name.toList) (" [label=\"" ++ toString t)
      [.word name, .sign '[', .word "label", .sign '='] (.quoted (toString t).toList) := by
    have hopen : Scans (.word name.toList) " [label=\""
        [.word name, .sign '[', .word "label", .sign '='] (.quoted []) :=
      scans_endWord _ fun _ => rfl
    exact hopen.append (scans_plain [] (plain_elemType t))
  cases ty with
  | none =>
      cases channel with
      | false => exact ⟨[], scans_endWord _ fun _ => rfl, by simp, rfl⟩
      | true =>
          exact ⟨[.sign '[', .word "style", .sign '=', .word "bold", .sign ',',
            .word "color", .sign '=', .word "red", .sign ']'],
            scans_endWord _ fun _ => rfl, by simp [Token.isEnd], rfl⟩
  | some t =>
      cases channel with
      | false =>
          exact ⟨[.sign '[', .word "label", .sign '=', .quoted (toString t), .sign ']'],
            (hlabel t).append (scans_endQuoted _ fun _ => rfl), by simp [Token.isEnd], rfl⟩
      | true =>
          exact ⟨[.sign '[', .word "label", .sign '=', .quoted (toString t), .sign ',',
            .word "style", .sign '=', .word "bold", .sign ',', .word "color", .sign '=',
            .word "red", .sign ']'],
            (hlabel t).append (scans_endQuoted _ fun _ => rfl), by simp [Token.isEnd], rfl⟩

theorem reads_edge (src dst : NodeId) (ty : Option ElemType) (channel : Bool) :
    Reads (DotStatement.edge src dst ty channel).text (itemsOf (.edge src dst ty channel)) := by
  have hstart : Scans .between "    " [] .between := rfl
  have harrow : Scans (.word (nodeName src).toList) " -> "
      [.word (nodeName src), .sign '-', .sign '>'] .between :=
    scans_endWord _ fun _ => rfl
  obtain ⟨ts, htail, hends, hattributes⟩ := scans_edgeTail (nodeName dst) ty channel
  have hscan := (((hstart.append (scans_nodeName src)).append harrow).append
    (scans_nodeName dst)).append htail
  rw [text_edge]
  rw [← List.append_assoc] at hscan
  refine reads_item hscan (by simpa [Token.isEnd] using hends) rfl ?_
  simp [itemOf, statement, hattributes]

/-- The text of a statement is read as its items. -/
theorem reads_text : ∀ s : DotStatement, Reads s.text (itemsOf s)
  | .leaf depth id n => reads_leaf depth id n
  | .enter depth id n => reads_enter depth id n
  | .leave depth id => reads_leave depth id
  | .edge src dst ty channel => reads_edge src dst ty channel

theorem reads_join (statements : List DotStatement) :
    Reads (String.join (statements.map DotStatement.text)) (statements.flatMap itemsOf) := by
  induction statements with
  | nil => exact reads_empty
  | cons s statements ih =>
      rw [List.map_cons, String.join_cons, List.flatMap_cons]
      exact (reads_text s).append ih

/-- How the text of a drawing begins. -/
theorem reads_preamble :
    Reads ("digraph ptc \x7b\n    rankdir=LR;\n"
      ++ "    node [fontname=\"Helvetica\", fontsize=10];\n"
      ++ "    edge [fontname=\"Helvetica\", fontsize=9];\n") (.digraph "ptc" :: preamble) := by
  have hgraph : Scans .between "digraph ptc \x7b\n    rankdir=LR;\n"
      [.word "digraph", .word "ptc", .sign '\x7b', .word "rankdir", .sign '=', .word "LR",
        .sign ';'] .between := rfl
  have hnodes : Scans .between "    node [fontname=\"Helvetica\", fontsize=10];\n"
      [.word "node", .sign '[', .word "fontname", .sign '=', .quoted "Helvetica", .sign ',',
        .word "fontsize", .sign '=', .word "10", .sign ']', .sign ';'] .between := rfl
  have hedges : Scans .between "    edge [fontname=\"Helvetica\", fontsize=9];\n"
      [.word "edge", .sign '[', .word "fontname", .sign '=', .quoted "Helvetica", .sign ',',
        .word "fontsize", .sign '=', .word "9", .sign ']', .sign ';'] .between := rfl
  refine ⟨_, (hgraph.append hnodes).append hedges, fun rest => ?_⟩
  cases hrest : items [] rest <;>
    simp [items, itemOf, opening, statement, brackets, attributes, isKeyword, Token.isEnd,
      Token.value?, preamble, hrest]

/-- The text of a drawing is read as one graph, with the items of the statements in it. -/
theorem read_dot (g : Graph) :
    read g.dot =
      some (.digraph "ptc" :: (preamble ++ g.drawing.flatMap itemsOf ++ [.close])) := by
  have hend : Reads "\x7d\n" [.close] := by
    have hbrace : Scans .between "\x7d\n" ([] ++ [.sign '\x7d']) .between := rfl
    exact reads_item hbrace (by simp) rfl rfl
  have h := (reads_preamble.append (reads_join g.drawing)).append hend
  have hread : read g.dot = _ := h.read_eq
  rw [hread]
  rfl

end Statements

end Dot
end Dataflow
