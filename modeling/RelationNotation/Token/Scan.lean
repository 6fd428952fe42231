import RelationNotation.Token.Lexeme

/-!
Scanning: cutting a text into tokens, blanks, comments and errors included. Behind the tokens stands
one token for the end of the input. What the scanner carries from one lexeme to the next is only
what it awaits and whether a single quote is open.
-/

namespace RelationNotation

/-- What the scanner knows of the lexemes before. -/
structure ScanMode where
  awaited : Awaited := .token
  quoteOpen : Bool := false
  deriving DecidableEq, Inhabited

namespace ScanMode

/-- The mode behind a lexeme of a kind. Blanks, line comments and errors change nothing, a quoted
string only ends the wait for an include file, and only a quote or a semicolon changes whether a
quote is open. -/
def after (m : ScanMode) : TokenKind → ScanMode
  | .whitespace | .lineComment | .error => m
  | .quotedString => if m.awaited = .file then { m with awaited := .token } else m
  | .quote => ⟨if m.quoteOpen then .token else .string, !m.quoteOpen⟩
  | .includeOpen => { m with awaited := .file }
  | .fycoideOpen => { m with awaited := .string }
  | .semicolon => ⟨.token, false⟩
  | _ => { m with awaited := .token }

end ScanMode

namespace Lexeme

def toToken (l : Lexeme) (p : Position) : Token := ⟨l.kind, l.text, ⟨p, p.after l.text⟩, l.fault⟩

end Lexeme

def scanFrom (m : ScanMode) (p : Position) : Text → List Token
  | [] => [.endOfInput p]
  | c :: cs =>
    let l := lexeme m.awaited (p.offset == 0) c cs
    l.toToken p :: scanFrom (m.after l.kind) (p.after l.text) ((c :: cs).drop l.text.length)
termination_by t => t.length
decreasing_by
  have := Lexeme.length_lexeme_pos m.awaited (p.offset == 0) c cs
  simp only [List.length_drop, List.length_cons]
  omega

def scan (t : Text) : List Token := scanFrom {} .start t

theorem flatMap_text_scanFrom (m : ScanMode) (p : Position) (t : Text) :
    (scanFrom m p t).flatMap Token.text = t := by
  fun_induction scanFrom m p t with
  | case1 => rfl
  | case2 m p c cs l ih =>
    rw [List.flatMap_cons, ih]
    exact Lexeme.lexeme_append_drop m.awaited (p.offset == 0) c cs

theorem flatMap_text_scan (t : Text) : (scan t).flatMap Token.text = t :=
  flatMap_text_scanFrom {} .start t

end RelationNotation
