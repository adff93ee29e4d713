import DesktopTerminal.Text.Pieces

/-!
# Fences

An answer may come wrapped in the fences of a markup language, although it was asked not to. Fence
lines are dropped, and then the line feeds at both ends and the blanks at the end.
-/
namespace DesktopTerminal

/-- Whether a line is a fence: three backquotes after any blanks. -/
def isFence (line : String) : Bool :=
  "```".toList.isPrefixOf (Text.trimStartChars line.toList)

def isLineFeed (c : Char) : Bool := c == '\n'

def stripFences (text : String) : String :=
  let kept := (Text.joinWith "\n" ((Text.lines text).filter (!isFence ·))).toList
  String.ofList (Text.trimEndChars (Text.dropEndWhile isLineFeed (kept.dropWhile isLineFeed)))

end DesktopTerminal
