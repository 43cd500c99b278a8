/-
Conditional blocks of a template (`scripts/render.py`).

`INNERMOST` is the opening marker, the body and the closing marker of
`conditionals`; `resolve_conditionals` is the rewriting of `Blocks`, repeated
until it finds no block, and the check for what is left open.
-/
import AgentPlatform.BlockTrees
import AgentPlatform.Patterns
import AgentPlatform.PyText

namespace AgentPlatform

namespace Render

open Rewriting Blocks

/-! ## The markers -/

/-- `if|unless` -/
inductive BlockKind where
  | ifBlock
  | unlessBlock
  deriving DecidableEq

def BlockKind.text : BlockKind → List Char
  | .ifBlock => "if".toList
  | .unlessBlock => "unless".toList

/-- `[A-Za-z_]` -/
def isNameStart (c : Char) : Bool := c.isAlpha || c == '_'

/-- `[A-Za-z0-9_]` -/
def isNameChar (c : Char) : Bool := c.isAlphanum || c == '_'

/-- `[A-Za-z_][A-Za-z0-9_]*`, the whole text. -/
def isName : List Char → Bool
  | [] => false
  | c :: cs => isNameStart c && cs.all isNameChar

/-- What an opening marker says: the kind of the block and a variable. -/
structure Condition where
  kind : BlockKind
  var : List Char
  isName : isName var = true
  deriving DecidableEq

def openHash : List Char := ['{', '{', '#']

def openSlash : List Char := ['{', '{', '/']

def closeBraces : List Char := ['}', '}']

section Markers

variable [UnicodeData]

/-- The opening marker of a kind. No part of it can be matched in two ways: a
name has no space in it, and neither has a brace. -/
def openingOf (kind : BlockKind) (t : List Char) : Option (Condition × List Char) :=
  (andThen (word openHash) (andThen (word kind.text) (run UnicodeData.isSpace 1)) t).bind fun t =>
    let var := t.takeWhile isNameChar
    if h : isName var = true then
      (andThen (run UnicodeData.isSpace 0) (word closeBraces) (t.dropWhile isNameChar)).map fun rest =>
        (⟨kind, var, h⟩, rest)
    else none

/-- `\{\{#(if|unless)\s+([A-Za-z_][A-Za-z0-9_]*)\s*\}\}` -/
def opening (t : List Char) : Option (Condition × List Char) :=
  (openingOf .ifBlock t).or (openingOf .unlessBlock t)

/-- `\{\{/\1\}\}` -/
def closing (c : Condition) : List Char := openSlash ++ (c.kind.text ++ closeBraces)

/-- `\{\{#(?:if|unless)\s` -/
def opensBlock (t : List Char) : Bool :=
  [BlockKind.ifBlock, .unlessBlock].any fun kind =>
    ((andThen (word openHash) (word kind.text) t).bind List.head?).any UnicodeData.isSpace

/-- `INNERMOST` -/
def conditionals : Markers Char Condition := ⟨opening, closing, opensBlock⟩

end Markers

/-! ## Resolving -/

/-- `os.environ`, or what a test passes for it. -/
abbrev Environ := List Char → Option (List Char)

section Resolve

variable [UnicodeData]

/-- `TRUEISH` -/
def trueish : List (List Char) := ["1".toList, "true".toList, "yes".toList, "on".toList]

def truthy : Option (List Char) → Bool
  | none => false
  | some value => trueish.contains ((Py.strip value).map Char.toLower)

/-- Whether the block of a condition is kept. -/
def keep (environ : Environ) (c : Condition) : Bool :=
  match c.kind with
  | .ifBlock => truthy (environ c.var)
  | .unlessBlock => !truthy (environ c.var)

/-- `UNCLOSED` -/
def unclosed : List Char := openHash

/-- `text.index(UNCLOSED)`, where it is in the text. -/
def unclosedAt (text : List Char) : Option Nat :=
  (firstMatch (fun t => if unclosed.isPrefixOf t then some () else none) text).map fun m => m.1.length

/-- The check after the loop. -/
def checkClosed (text : List Char) : Except Exn (List Char) :=
  match unclosedAt text with
  | none => .ok text
  | some place => .error ⟨.valueError, "unbalanced or malformed conditional block near " ++
      Py.reprStr (String.ofList ((text.take (place + 40)).drop (place - 40)))⟩

/-- `resolve_conditionals`, its loop run at most `n` times. -/
def resolveConditionals (n : Nat) (text : List Char) (environ : Environ) : Option (Except Exn (List Char)) :=
  (conditionals.resolve (keep environ) n text).map checkClosed

/-- `resolve_conditionals` ends, with this result: however long its loop may
run, if it may for once for each character and once more. -/
def Renders (text : List Char) (environ : Environ) (result : Except Exn (List Char)) : Prop :=
  ∀ n, text.length < n → resolveConditionals n text environ = some result

end Resolve

/-! ## Templates -/

/-- A template: texts, and blocks around templates. -/
abbrev Template := List (Node Char Condition)

/-- `{{#if VAR}}` or `{{#unless VAR}}` -/
def mark (c : Condition) : List Char := openHash ++ (c.kind.text ++ (' ' :: (c.var ++ closeBraces)))

section Templates

variable [UnicodeData]

def Template.print (template : Template) : List Char := printAll conditionals mark template

/-- The blocks kept or dropped by the structure of the template. -/
def Template.value (environ : Environ) (template : Template) : List Char := valueAll (keep environ) template

end Templates

/-- A text without the beginnings of a marker. -/
def PlainText (s : List Char) : Prop := ¬ ['{', '{'] <:+: s ∧ ¬ ['{', '#'] <:+: s ∧ ¬ ['{', '/'] <:+: s

end Render

end AgentPlatform
