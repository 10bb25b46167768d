import PerlJava.Text.CharClass

/-!
# Words
-/

namespace PerlJava.Text

/-- The words of a text, in order; blanks divide them. -/
def wordsList : List Char → List (List Char)
  | [] => []
  | c :: text =>
    if isBlank c then wordsList text
    else
      match text with
      | [] => [[c]]
      | d :: _ =>
        if isBlank d then [c] :: wordsList text
        else
          match wordsList text with
          | [] => [[c]]
          | word :: words => (c :: word) :: words

def words (text : String) : List String :=
  (wordsList text.toList).map String.ofList

def strip (text : String) : String :=
  let body := text.toList.dropWhile isBlank
  String.ofList (body.reverse.dropWhile isBlank).reverse

end PerlJava.Text
