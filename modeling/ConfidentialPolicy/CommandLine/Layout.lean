import ConfidentialPolicy.Fragment.Resolution

namespace ConfidentialPolicy.CommandLine.Layout

abbrev Lines := List String

def Lines.text (ls : Lines) : String := String.join (ls.map (· ++ "\n"))

def repeated (c : Char) (n : Nat) : String := String.ofList (List.replicate n c)

def boxWidth : Nat := 58

/-- A title in the middle of a box; an odd column goes to the right. -/
def header (title : String) : Lines :=
  let free := boxWidth - title.length
  ["",
    "╔" ++ repeated '═' boxWidth ++ "╗",
    "║" ++ repeated ' ' (free / 2) ++ title ++ repeated ' ' (free - free / 2) ++ "║",
    "╚" ++ repeated '═' boxWidth ++ "╝",
    ""]

def heading (title : String) : Lines := ["", "  ▸ " ++ title, "  " ++ repeated '─' 50]

def success (text : String) : Lines := ["  ✓ " ++ text]

def warning (text : String) : Lines := ["  ⚠ " ++ text]

def failure (text : String) : Lines := ["  ✗ " ++ text]

def hint (text : String) : Lines := ["  💡 " ++ text]

def entry (key value : String) : Lines := ["  " ++ key ++ ": " ++ value]

def svnText (svn : UInt64) : String := Text.decimal svn.toNat

def decision : Decision → Lines
  | .accepted feed svn => success (feed ++ " (svn " ++ svnText svn ++ ") accepted")
  | .untrusted feed => warning (feed ++ " is not imported, ignored")
  | .tooOld feed svn minimumSvn =>
    warning (feed ++ " svn " ++ svnText svn ++ " is below minimum " ++ svnText minimumSvn ++
      ", containers stay inline")
  | .missingSvn feed => warning (feed ++ " declares no svn, ignored")
  | .unavailable source reason => warning (source ++ " unavailable: " ++ reason.message)

end ConfidentialPolicy.CommandLine.Layout
