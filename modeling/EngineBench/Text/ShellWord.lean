/-!
# Shell words

`shellWord` writes a text as one word of the shell. A text of characters that mean nothing to the
shell is written as it is; any other text, the empty one included, stands between single quotes,
where only the single quote itself needs care: it closes the quotes, is written escaped, and opens
them again.
-/

namespace EngineBench.Text

def isPlain (c : Char) : Bool :=
  c.isAlphanum || "-_./:=,+@%".toList.contains c

def quoteBody : List Char → List Char
  | [] => []
  | c :: r => if c = '\'' then '\'' :: '\\' :: '\'' :: '\'' :: quoteBody r else c :: quoteBody r

def shellWord (s : String) : String :=
  if s.toList ≠ [] ∧ s.toList.all isPlain then s
  else String.ofList ('\'' :: quoteBody s.toList ++ ['\''])

end EngineBench.Text
