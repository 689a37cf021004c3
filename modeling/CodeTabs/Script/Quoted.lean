import CodeTabs.Text.Basic

/-!
Strings are written in double quotes. The double quote itself, the control characters that have
an escape and the separators that look like blanks or end a line are escaped. So is the slash of
`</script`, in any case of its letters, which would end the page that a script stands in.
-/

namespace CodeTabs.Script.Quoted

def escapes : List (Char × Text) :=
  [('"', "\\\""), ('\n', "\\n"), ('\r', "\\r"), ('\x07', "\\x07"), ('\x08', "\\b"),
    ('\x0b', "\\v"), ('\x0c', "\\f"), ('\x1b', "\\x1B"), ('\u00a0', "\\xA0"),
    ('\u2028', "\\u2028"), ('\u2029', "\\u2029")]

def closesScript (text : Text) : Bool :=
  ("/script" : Text).isPrefixOf (text.map Char.toLower)

/-- What is written for a character before `rest`. A null before a digit is written at length,
for the short form and the digit would be read as another character. -/
def escape (c : Char) (rest : Text) : Text :=
  if c = '\x00' then if rest.head?.any Char.isDigit then "\\x00" else "\\0"
  else if c = '<' && closesScript (rest.take 7) then "<\\"
  else (escapes.lookup c).getD [c]

def escaped : Text → Text
  | [] => []
  | c :: rest => escape c rest ++ escaped rest

def render (contents : Text) : Text := '"' :: escaped contents ++ "\""

end CodeTabs.Script.Quoted
