/-
Rendering a template (`main` of `scripts/render.py`): the conditional blocks,
then `string.Template.substitute` over the environment.

`render_document`: a document of texts, escaped dollars, variables with braces and
without, and nested blocks is rendered by its structure. A variable is read where it
is kept, its value is not read again, and one that is missing ends the run with
nothing written.
-/
import AgentPlatform.RenderFacts

namespace AgentPlatform

namespace Render

open Rewriting Blocks

/-! ## Substituting -/

/-- What `string.Template.pattern` finds after a dollar sign. -/
inductive Placeholder where
  /-- `$$` -/
  | escaped
  /-- `$name` or `${name}`, and how much of the text it takes -/
  | variable (name : List Char) (length : Nat)
  | invalid
  deriving DecidableEq

def placeholder : List Char → Placeholder
  | '$' :: _ => .escaped
  | '{' :: t =>
    let name := t.takeWhile isNameChar
    if isName name && (t.dropWhile isNameChar).head? = some '}' then .variable name (name.length + 2) else .invalid
  | t =>
    let name := t.takeWhile isNameChar
    if isName name then .variable name name.length else .invalid

/-- `KeyError`, or `ValueError("Invalid placeholder in string: line …, col …")` -/
inductive SubstituteError where
  | missing (name : List Char)
  | invalid (line col : Nat)
  deriving DecidableEq

/-- Where `splitlines` ends a line, but for a carriage return and a line feed together. -/
def isLineEnd (c : Char) : Bool :=
  ['\n', '\r', '\x0b', '\x0c', '\x1c', '\x1d', '\x1e', '\u0085', '\u2028', '\u2029'].contains c

/-- The line a text ends in, and how much of it there is, behind so many lines and characters. -/
def lineCol : Nat → Nat → List Char → Nat × Nat
  | line, col, [] => (line, col)
  | line, _, '\r' :: '\n' :: t => lineCol (line + 1) 0 t
  | line, col, c :: t => if isLineEnd c then lineCol (line + 1) 0 t else lineCol line (col + 1) t

/-- `_invalid(mo)`, of a dollar sign in the template and what follows it -/
def invalidAt (template rest : List Char) : SubstituteError :=
  let (line, col) := lineCol 1 0 (template.take (template.length - rest.length))
  .invalid line col

/-- `Template(template).substitute(environ)`, after so many characters that a placeholder took. -/
def substituteFrom (environ : Environ) (template : List Char) : Nat → List Char → Except SubstituteError (List Char)
  | _, [] => .ok []
  | n + 1, _ :: t => substituteFrom environ template n t
  | 0, c :: t =>
    if c ≠ '$' then (substituteFrom environ template 0 t).map (c :: ·)
    else
      match placeholder t with
      | .escaped => (substituteFrom environ template 1 t).map ('$' :: ·)
      | .variable name length =>
        match environ name with
        | some value => (substituteFrom environ template length t).map (value ++ ·)
        | none => .error (.missing name)
      | .invalid => .error (invalidAt template t)

def substitute (environ : Environ) (template : List Char) : Except SubstituteError (List Char) :=
  substituteFrom environ template 0 template

/-! ## The command -/

/-- The exit status, and what is written. -/
structure Exit where
  status : Nat
  stdout : List Char := []
  stderr : String := ""
  deriving DecidableEq

section Command

variable [UnicodeData]

/-- The end of `main`, from what `substitute` returned or raised. -/
def substituted : Except SubstituteError (List Char) → Exit
  | .ok rendered => { status := 0, stdout := rendered }
  | .error (.invalid line col) =>
    { status := 1, stderr := "render.py: Invalid placeholder in string: line " ++ toString line ++ ", col " ++
        toString col ++ "\n" }
  | .error (.missing name) =>
    { status := 1, stderr := "render.py: missing environment variable " ++ Py.reprStr (String.ofList name) ++ "\n" }

/-- The end of `main`, from what `resolve_conditionals` returned or raised. -/
def exitOf (environ : Environ) : Except Exn (List Char) → Exit
  | .error e => { status := 1, stderr := "render.py: " ++ e.msg ++ "\n" }
  | .ok text => substituted (substitute environ text)

/-- `main()`, with the arguments after the command, what a file holds, and the
loop over the blocks run at most `n` times; a file that cannot be read is not
caught. -/
def main (n : Nat) (args : List String) (read : String → Except Exn (List Char)) (environ : Environ) :
    Option (Except Exn Exit) :=
  match args with
  | [path] =>
    match read path with
    | .error e => some (.error e)
    | .ok raw => (resolveConditionals n raw environ).map fun result => .ok (exitOf environ result)
  | _ => some (.ok { status := 2, stderr := "usage: render.py <template>\n" })

end Command

/-! ## Documents -/

/-- A part of a text: a character, a dollar sign, the value of a variable, named in braces or without. -/
inductive Item where
  | char (c : Char) (h : c ≠ '$')
  | dollar
  | braced (name : List Char) (h : isName name = true)
  | named (name : List Char) (h : isName name = true)

/-- As it is written. -/
def Item.print : Item → List Char
  | .char c _ => [c]
  | .dollar => ['$', '$']
  | .braced name _ => '$' :: '{' :: (name ++ ['}'])
  | .named name _ => '$' :: name

/-- Behind a name without braces is no character that it would go on with. -/
def Ended : List Item → Prop
  | [] => True
  | .named _ _ :: items => (∀ c ∈ (items.flatMap Item.print).head?, isNameChar c = false) ∧ Ended items
  | _ :: items => Ended items

/-- The value of a variable before what follows. -/
def evalVar (environ : Environ) (name : List Char) (rest : Except SubstituteError (List Char)) :
    Except SubstituteError (List Char) :=
  match environ name with
  | some value => rest.map (value ++ ·)
  | none => .error (.missing name)

/-- What items say, up to the first variable that is missing. -/
def evalItems (environ : Environ) : List Item → Except SubstituteError (List Char)
  | [] => .ok []
  | .char c _ :: items => (evalItems environ items).map (c :: ·)
  | .dollar :: items => (evalItems environ items).map ('$' :: ·)
  | .braced name _ :: items => evalVar environ name (evalItems environ items)
  | .named name _ :: items => evalVar environ name (evalItems environ items)

/-- Texts of items, and blocks around documents. -/
abbrev Document := List (Node Item Condition)

theorem substituteFrom_skip (environ : Environ) (template : List Char) : ∀ (taken rest : List Char),
    substituteFrom environ template taken.length (taken ++ rest) = substituteFrom environ template 0 rest
  | [], _ => rfl
  | _ :: taken, rest => substituteFrom_skip environ template taken rest

/-- A variable is read, and what the placeholder took is behind. -/
theorem substituteFrom_var (environ : Environ) (template : List Char) {name taken rest : List Char}
    (hplace : placeholder (taken ++ rest) = .variable name taken.length) :
    substituteFrom environ template 0 ('$' :: (taken ++ rest)) =
      evalVar environ name (substituteFrom environ template 0 rest) := by
  rw [substituteFrom, if_neg (by simp), hplace, evalVar]
  dsimp only
  rw [substituteFrom_skip]

theorem placeholder_braced {name : List Char} (h : isName name = true) (rest : List Char) :
    placeholder ('{' :: (name ++ ['}']) ++ rest) = .variable name ('{' :: (name ++ ['}'])).length := by
  have hafter : ∀ c ∈ ('}' :: rest).head?, isNameChar c = false := by
    rintro c ⟨⟩
    decide
  obtain ⟨htake, hdrop⟩ := takeWhile_exact (isNameChar_of_isName h).1 hafter
  have happend : '{' :: (name ++ ['}']) ++ rest = '{' :: (name ++ '}' :: rest) := by simp
  rw [happend]
  simp [placeholder, htake, hdrop, h]

theorem placeholder_named {name : List Char} (h : isName name = true) {rest : List Char}
    (hrest : ∀ c ∈ rest.head?, isNameChar c = false) :
    placeholder (name ++ rest) = .variable name name.length := by
  obtain ⟨htake, -⟩ := takeWhile_exact (isNameChar_of_isName h).1 hrest
  obtain ⟨hall, c, cs, rfl⟩ := isNameChar_of_isName h
  have hc : isNameChar c = true := hall c (List.mem_cons_self ..)
  rw [List.cons_append] at htake ⊢
  unfold placeholder
  split
  next t ht =>
    obtain ⟨rfl, -⟩ := List.cons.inj ht
    exact absurd hc (by decide)
  next t ht =>
    obtain ⟨rfl, -⟩ := List.cons.inj ht
    exact absurd hc (by decide)
  next => rw [htake, if_pos h]

/-- Printed items are substituted by what they say. -/
theorem substitute_print (environ : Environ) (template : List Char) : ∀ items : List Item, Ended items →
    substituteFrom environ template 0 (items.flatMap Item.print) = evalItems environ items
  | [], _ => rfl
  | .char c h :: items, hended => by
    have ih := substitute_print environ template items hended
    show substituteFrom environ template 0 (c :: items.flatMap Item.print) = _
    rw [substituteFrom, if_pos h, ih, evalItems]
  | .dollar :: items, hended => by
    have ih := substitute_print environ template items hended
    show substituteFrom environ template 0 ('$' :: '$' :: items.flatMap Item.print) = _
    rw [substituteFrom, if_neg (by simp), evalItems, ← ih]
    rfl
  | .braced name h :: items, hended => by
    have ih := substitute_print environ template items hended
    have hvar := substituteFrom_var environ template (placeholder_braced h (items.flatMap Item.print))
    rw [ih] at hvar
    exact hvar
  | .named name h :: items, hended => by
    have ih := substitute_print environ template items hended.2
    have hvar := substituteFrom_var environ template (placeholder_named h hended.1)
    rw [ih] at hvar
    exact hvar

/-! ## Rendering -/

/-- Behind each brace of the text is a character that makes it no part of a marker. -/
def Calm (s : List Char) : Prop :=
  ∀ a b, s = a ++ '{' :: b → ∃ c b', b = c :: b' ∧ c ≠ '{' ∧ c ≠ '#' ∧ c ≠ '/'

theorem calm_iff {s : List Char} : Calm s ↔ ∀ t ∈ s.tails, t.head? = some '{' →
    (t.tail.head?.any fun c => c ≠ '{' && c ≠ '#' && c ≠ '/') = true := by
  simp only [List.mem_tails]
  constructor
  · rintro hs t ⟨a, rfl⟩ ht
    obtain ⟨b, rfl⟩ := List.head?_eq_some_iff.1 ht
    obtain ⟨c, b', rfl, hc⟩ := hs a b rfl
    simpa [and_assoc] using hc
  · rintro hs a b rfl
    have hb := hs ('{' :: b) ⟨a, rfl⟩ rfl
    cases b with
    | nil => cases hb
    | cons c b' => exact ⟨c, b', rfl, by simpa [and_assoc] using hb⟩

instance : DecidablePred Calm := fun _ => decidable_of_iff _ calm_iff.symm

theorem calm_nil : Calm [] := fun a b h => by simp at h

theorem Calm.append {s t : List Char} (hs : Calm s) (ht : Calm t) : Calm (s ++ t) := by
  intro a b h
  rcases List.append_eq_append_iff.1 h with ⟨a', rfl, hb⟩ | ⟨b', rfl, hb⟩
  · exact ht a' b hb
  · cases b' with
    | nil => exact ht [] b (by simpa using hb.symm)
    | cons x b' =>
      obtain ⟨rfl, rfl⟩ := List.cons.inj hb
      obtain ⟨c, b'', rfl, hc⟩ := hs a b' rfl
      exact ⟨c, b'' ++ t, rfl, hc⟩

theorem Calm.not_infix {s : List Char} (hs : Calm s) {c : Char} (hc : c = '{' ∨ c = '#' ∨ c = '/') :
    ¬ ['{', c] <:+: s := by
  rintro ⟨a, b, rfl⟩
  obtain ⟨x, b', hb, hx⟩ := hs a (c :: b) (by simp)
  obtain ⟨rfl, rfl⟩ := List.cons.inj hb
  rcases hc with rfl | rfl | rfl
  · exact hx.1 rfl
  · exact hx.2.1 rfl
  · exact hx.2.2 rfl

section Rendering

variable [UnicodeData]

theorem Calm.unmarked {s : List Char} (hs : Calm s) :
    ¬ conditionals.Opens s ∧ ∀ c, ¬ conditionals.closing c <:+: s := by
  constructor
  · rintro ⟨u, hu, hopens⟩
    obtain ⟨kind, x, r, rfl, -⟩ := opensBlock_iff.1 hopens
    exact hs.not_infix (.inl rfl) (((List.prefix_append ['{', '{'] _).isInfix).trans hu.isInfix)
  · intro c h
    have hbraces : ['{', '/'] <:+: closing c := ⟨['{'], c.kind.text ++ closeBraces, rfl⟩
    exact hs.not_infix (.inr (.inr rfl)) (hbraces.trans h)

/-- A document as it is written. -/
def Document.print (doc : Document) : List Char := Template.print (bindAll Item.print doc)

/-- What rendering a document ends in. -/
def Document.exit (environ : Environ) (doc : Document) : Exit :=
  substituted (evalItems environ (valueAll (keep environ) doc))

/-- The texts of a document that come together, where blocks are dropped, make no marker,
and no name goes on. -/
structure Document.Clear (environ : Environ) (doc : Document) : Prop where
  joined : JoinedAll conditionals (keep environ) (bindAll Item.print doc)
  top : ¬ openHash <:+: (valueAll (keep environ) doc).flatMap Item.print
  ended : Ended (valueAll (keep environ) doc)

/-- Calm texts are clear, whatever is dropped. -/
theorem Document.Clear.of_calm {environ : Environ} {doc : Document}
    (hcalm : ∀ items ∈ leavesAll doc, Calm (items.flatMap Item.print)) (hended : Ended (valueAll (keep environ) doc)) :
    doc.Clear environ := by
  have hleaves : ∀ s ∈ leavesAll (bindAll Item.print doc), Calm s := by
    rw [leavesAll_bind, List.forall_mem_map]
    exact hcalm
  have hvalue : Calm (valueAll (keep environ) (bindAll Item.print doc)) :=
    valueAll_of_leaves calm_nil Calm.append _ hleaves
  rw [valueAll_bind] at hvalue
  refine ⟨joinedAll_of_leaves calm_nil Calm.append (fun _ => Calm.unmarked) _ hleaves, fun h => ?_, hended⟩
  exact hvalue.not_infix (.inl rfl) ((List.prefix_append ['{', '{'] ['#']).isInfix.trans h)

/-- **A document is rendered by its structure.** The blocks of a document whose texts
make no markers are kept and dropped, its variables read, as its tree has it: the
run ends, and writes what the parts that are kept say, or fails at the first
variable of these that is missing, with nothing written. -/
theorem render_document [LawfulUnicode] (doc : Document) (environ : Environ) (path : String)
    (hclear : doc.Clear environ) (n : Nat) (hn : doc.print.length < n) :
    main n [path] (fun _ => .ok doc.print) environ = some (.ok (doc.exit environ)) := by
  have hvalue : Template.value environ (bindAll Item.print doc) = (valueAll (keep environ) doc).flatMap Item.print :=
    valueAll_bind ..
  have hreads := reads_template hclear.joined (hvalue ▸ hclear.top)
  have hrenders := renders_reads hreads n hn
  rw [Reading.whole, surround, List.nil_append, hvalue, checkClosed_ok hclear.top] at hrenders
  show (resolveConditionals n doc.print environ).map _ = _
  rw [show resolveConditionals n doc.print environ = _ from hrenders, Option.map_some, exitOf, substitute,
    substitute_print environ _ _ hclear.ended]
  rfl

end Rendering

/-- A secret between quotes, and a block for another deployment that asks for a variable nobody set. -/
def sampleDocument : Document :=
  [.text [.char '"' (by decide), .named "SECRET".toList rfl, .char '"' (by decide)],
    .block ⟨.ifBlock, "KMS".toList, rfl⟩ [.text [.braced "KEY".toList rfl]], .text [.dollar]]

theorem render_sampleDocument : let _ := asciiData
    let environ : Environ := fun name => if name = "SECRET".toList then some "$\x7bKEY\x7d\x7b\x7b#if".toList else none
    main 100 ["realm.json.tmpl"] (fun _ => .ok sampleDocument.print) environ =
      some (.ok { status := 0, stdout := "\"$\x7bKEY\x7d\x7b\x7b#if\"$".toList }) := by
  intro _ environ
  have : LawfulUnicode := asciiData_lawful
  have hcalm : ∀ items ∈ leavesAll sampleDocument, Calm (items.flatMap Item.print) := by decide
  have hended : Ended (valueAll (keep environ) sampleDocument) := ⟨fun c hc => by cases hc; decide, trivial⟩
  exact render_document sampleDocument environ "realm.json.tmpl" (.of_calm hcalm hended) 100 (by decide)

end Render

end AgentPlatform
