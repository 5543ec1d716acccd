/-
The wikitext grammar of the citation parser, rule by rule, and what each rule
reads.  The lexemes are runs of a character class, so the rules below the
template are described by `takeWhile` and `dropWhile`.
-/
import Citescoop.Peg
import Citescoop.Text

namespace Citescoop

open Peg

structure ParameterEntry where
  key : Text
  value : Option Text
deriving Repr, DecidableEq

structure TemplateEntry where
  name : Text
  params : List ParameterEntry
deriving Repr, DecidableEq

def templateTypeRule : Parser Char Text :=
  lexeme (many1 (diff anyToken (lit ['|'])))

def keyRule : Parser Char Text :=
  lexeme (many (diff (diff (diff anyToken (lit ['='])) (lit ['|'])) (lit ['}'])))

def valRule : Parser Char Text :=
  seqRight (lit ['='])
    (lexeme (many (diff (diff anyToken (lit ['|'])) (lit ['}']))))

def paramRule : Parser Char ParameterEntry :=
  map (fun (key, value) => ⟨key, value⟩) (seq keyRule (opt valRule))

def templateRule : Parser Char TemplateEntry :=
  map (fun (name, params) => ⟨name, params⟩)
    (seq (seqLeft (seqRight (lit ['{', '{']) templateTypeRule) (lit ['|']))
      (seqLeft (delimited paramRule (lit ['|'])) (lit ['}', '}'])))

/-- Skip any characters until the next `{{` without consuming the `{{`. -/
def skipToTemplate : Parser Char Text :=
  many (seqRight (notAhead (lit ['{', '{'])) anyToken)

/-- Repeat: skip junk, then parse a template. -/
def wikitextRule : Parser Char (List TemplateEntry) :=
  many (seqRight (omitValue skipToTemplate) templateRule)

/-- `bp::prefix_parse` with the skipper `bp::ws`. -/
def prefixParse {α : Type} (p : Parser Char α) (text : Text) :
    Option (α × Text) :=
  p isSpace (text.dropWhile isSpace)

def isNameChar (c : Char) : Bool := c != '|'

def isKeyChar (c : Char) : Bool := c != '=' && c != '|' && c != '}'

def isValChar (c : Char) : Bool := c != '|' && c != '}'

theorem templateTypeRule_eq (ws : Char → Bool) (s : Text) :
    templateTypeRule ws s =
      if s.takeWhile isNameChar = [] then none
      else some (s.takeWhile isNameChar, s.dropWhile isNameChar) := by
  have hclass : ∀ s, diff anyToken (lit ['|']) (fun _ => false) s =
      satisfy isNameChar (fun _ => false) s := by
    intro s
    rw [diff_satisfy_lit (anyToken_eq (fun _ => false))]
    simp only [Bool.true_and]
    rfl
  cases s with
  | nil => simp [templateTypeRule, lexeme, many1, Peg.cons, hclass, satisfy]
  | cons c s =>
      simp only [templateTypeRule, lexeme, many1, Peg.cons, map,
        dropWhile_none, hclass, satisfy]
      by_cases hc : isNameChar c = true
      · simp [hc, many_congr hclass, many_satisfy]
      · simp [hc]

theorem keyRule_eq (ws : Char → Bool) (s : Text) :
    keyRule ws s = some (s.takeWhile isKeyChar, s.dropWhile isKeyChar) := by
  have hclass : ∀ s, diff (diff (diff anyToken (lit ['='])) (lit ['|']))
      (lit ['}']) (fun _ => false) s =
      satisfy isKeyChar (fun _ => false) s := by
    intro s
    rw [diff_satisfy_lit (diff_satisfy_lit (diff_satisfy_lit
      (anyToken_eq (fun _ => false)) '=') '|')]
    simp only [Bool.true_and]
    rfl
  rw [keyRule, lexeme, many_congr hclass, many_satisfy]

theorem valRule_eq (s : Text) :
    valRule isSpace ('=' :: s) =
      some ((s.dropWhile isSpace).takeWhile isValChar,
        (s.dropWhile isSpace).dropWhile isValChar) := by
  have hclass : ∀ s, diff (diff anyToken (lit ['|'])) (lit ['}'])
      (fun _ => false) s = satisfy isValChar (fun _ => false) s := by
    intro s
    rw [diff_satisfy_lit (diff_satisfy_lit
      (anyToken_eq (fun _ => false)) '|')]
    simp only [Bool.true_and]
    rfl
  have hspace : isSpace '=' = false := by decide
  simp [valRule, seqRight, map, seq, hspace, lit, lexeme, many_congr hclass,
    many_satisfy]

theorem valRule_eq_none {s : Text} (hs : ∀ c rest, s = c :: rest →
    c ≠ '=' ∧ isSpace c = false) : valRule isSpace s = none := by
  cases s with
  | nil => simp [valRule, seqRight, map, seq, lit]
  | cons c s =>
      obtain ⟨hc, hspace⟩ := hs c s rfl
      simp [valRule, seqRight, map, seq, hspace, lit, Ne.symm hc]

end Citescoop
