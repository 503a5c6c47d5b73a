import TexFigure.Text.Basic
/-!
# Labels

A drawing shows labels as plain text: the signs around inline mathematics go, a few commands
become the characters they stand for, and braces are dropped.
-/

namespace TexFigure.Preview

/-- Commands and what stands for them in plain text, in the order in which they are replaced. -/
def commandTexts : List (Text × Text) := [
  ("\\,", " "), ("\\cdot", "·"), ("\\pi", "π"), ("\\theta", "θ"), ("\\alpha", "α"),
  ("\\beta", "β"), ("\\infty", "∞"), ("\\textbf", ""), ("\\mathrm", ""), ("\\text", "")]

/-- A label as plain text. -/
def plainLabel (label : Text) : Text :=
  let replaced := commandTexts.foldl (fun text (command, plain) => Text.replace command plain text)
    (label.filter (· != '$'))
  Text.trim (replaced.filter fun c => c != '{' && c != '}')

end TexFigure.Preview
