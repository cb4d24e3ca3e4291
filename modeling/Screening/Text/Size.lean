/-!
# The size of a text in UTF-8
-/

namespace Screening.Text

def utf8Size (cs : List Char) : Nat := cs.foldl (fun n c => n + c.utf8Size) 0

end Screening.Text
