import DesktopTerminal.Tree.Store

/-!
# The tree of a new desktop

A home directory with the usual folders, and the directories `etc`, `tmp` and `bin`.
-/
namespace DesktopTerminal

def welcomeText : String :=
  "Welcome to the desktop.\nType 'help' in the terminal to list commands."

def shellProfile : String := "# ~/.bashrc\nexport PS1='\\u@\\h:\\w$ '"

def superuser : Identity := ⟨"root", "root"⟩

/-- The tree that a desktop starts with. The home directory is named after the user as it is. -/
def initialTree (owner : Identity) (hostname : String) (now : Instant) : Node :=
  let folder (name : String) (owner : Identity) (children : List Node) : Node :=
    (Node.newDirectory name owner now).withChildren (fun _ => children)
  folder "" superuser
    [folder "home" superuser
      [folder owner.user owner
        [folder "Desktop" owner [],
          folder "Documents" owner [Node.newFile "readme.txt" welcomeText owner now],
          folder "Downloads" owner [],
          Node.newFile ".bashrc" shellProfile owner now]],
      folder "etc" superuser [Node.newFile "hostname" hostname superuser now],
      folder "tmp" superuser [],
      folder "bin" superuser []]

end DesktopTerminal
