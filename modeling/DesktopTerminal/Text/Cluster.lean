import DesktopTerminal.Text.ClusterTable
import DesktopTerminal.Text.Ranges

/-!
# Clusters

What a reader takes for one character may be written with several: a letter with its marks, a
syllable, a flag, a pictograph joined from others. A text is segmented into such clusters, extended
grapheme clusters, by looking at each character and at what stands before it in its cluster. Nothing
of the text is lost.
-/
namespace DesktopTerminal.Text

/-- What a character does at the border to its neighbours. -/
inductive ClusterRole where
  | control
  | extend
  | joiner
  | spacing
  | prepend
  | regional
  | leading
  | vowel
  | trailing
  | openSyllable
  | closedSyllable
  | other
deriving DecidableEq, Repr

namespace ClusterRole

/-- The whole syllables of Hangul, every twenty-eighth of which has no trailing consonant. -/
def ofSyllable (n : Nat) : ClusterRole :=
  if (n - 0xac00) % 28 = 0 then openSyllable else closedSyllable

def ofChar (c : Char) : ClusterRole :=
  if ' ' ≤ c && c ≤ '~' then other
  else if inRanges controlRanges c then control
  else if c = '\u200d' then joiner
  else if 0xac00 ≤ c.toNat && c.toNat ≤ 0xd7a3 then ofSyllable c.toNat
  else if 0x1f1e6 ≤ c.toNat && c.toNat ≤ 0x1f1ff then regional
  else if inRanges leadingRanges c then leading
  else if inRanges vowelRanges c then vowel
  else if inRanges trailingRanges c then trailing
  else if inRanges extendRanges c then extend
  else if inRanges spacingRanges c then spacing
  else if inRanges prependRanges c then prepend
  else other

/-- Whether two characters belong to one syllable of Hangul. -/
def inSyllable : ClusterRole → ClusterRole → Bool
  | leading, next => next == leading || next == vowel || next == openSyllable ||
      next == closedSyllable
  | openSyllable, next | vowel, next => next == vowel || next == trailing
  | closedSyllable, next | trailing, next => next == trailing
  | _, _ => false

end ClusterRole

/-- The marks between two consonants that a linker among them binds. -/
def isConjunctMark (c : Char) : Bool :=
  match ClusterRole.ofChar c with
  | .extend | .joiner => c != '\u200c'
  | _ => false

/-- Whether a text, in reverse, ends in a consonant that is bound to the next one. -/
def endsBound (before : List Char) : Bool :=
  (before.takeWhile isConjunctMark).any (inRanges linkerRanges) &&
    (before.dropWhile isConjunctMark).head?.any (inRanges consonantRanges)

/-- Whether a text, in reverse, ends in a pictograph that is joined to the next one. -/
def endsJoined : List Char → Bool
  | [] => false
  | c :: before =>
    c == '\u200d' &&
      (before.dropWhile (ClusterRole.ofChar · == .extend)).head?.any (inRanges pictographRanges)

/-- Whether a text, in reverse, ends in the first half of a flag. -/
def endsInHalfFlag (before : List Char) : Bool :=
  (before.takeWhile (ClusterRole.ofChar · == .regional)).length % 2 == 1

/-- Whether a character belongs to the cluster before it, which is given in reverse. -/
def joins (before : List Char) (c : Char) : Bool :=
  match before with
  | [] => false
  | last :: _ =>
    last == '\r' && c == '\n' ||
    match ClusterRole.ofChar last, ClusterRole.ofChar c with
    | .control, _ | _, .control => false
    | _, .extend | _, .joiner | _, .spacing | .prepend, _ => true
    | .regional, .regional => endsInHalfFlag before
    | role, next =>
      role.inSyllable next || inRanges consonantRanges c && endsBound before ||
        inRanges pictographRanges c && endsJoined before

/-- The clusters of a text that goes on in a cluster of which a part, in reverse, is known. -/
def clustersFrom (part : List Char) : List Char → List (List Char)
  | [] => [part.reverse]
  | c :: cs =>
    if joins part c then clustersFrom (c :: part) cs else part.reverse :: clustersFrom [c] cs

/-- The clusters of a text. -/
def clusters : List Char → List (List Char)
  | [] => []
  | c :: cs => clustersFrom [c] cs

theorem flatten_clustersFrom (part cs : List Char) :
    (clustersFrom part cs).flatten = part.reverse ++ cs := by
  induction cs generalizing part with
  | nil => simp [clustersFrom]
  | cons c cs ih =>
    rw [clustersFrom]
    split
    · simp [ih]
    · simp [ih]

/-- Put together again, the clusters are the text. -/
@[simp] theorem flatten_clusters (cs : List Char) : (clusters cs).flatten = cs := by
  cases cs with
  | nil => rfl
  | cons c cs => simp [clusters, flatten_clustersFrom]

end DesktopTerminal.Text
