/-! Finding a word in a text. -/
namespace TraceDiff.Text

def containsWord (word : List Char) : List Char → Bool
  | [] => word.isEmpty
  | c :: cs => word.isPrefixOf (c :: cs) || containsWord word cs

/-- Capitals to small letters among ASCII; no other letter has an ASCII letter of `word`s sought in
English for its small form. -/
def foldCase (cs : List Char) : List Char := cs.map Char.toLower

end TraceDiff.Text
