import DesktopTerminal.Session.Basic

/-!
# Turns

A submitted line is first entered, in the log and the history. Then it runs, and the session settles
what has come of it.
-/
namespace DesktopTerminal.Session

theorem submit_eq (now : Instant) (line : String) (d : Desktop) (s : Session) :
    s.submit now line d =
      if s.isBusy then (.error .busy, d, s)
      else if Text.isBlankText line then (.ok .rendered, d, (s.entered line d).endTurn .rendered)
      else
        ((s.entered line d).moveTo .processing).settle line d
          (runLine line ((s.entered line d).workspace now d)) := by
  rw [submit]
  rfl

/-- A line that is read and runs here settles with what has come of it. -/
theorem submit_of_completed {now : Instant} {line : String} {d : Desktop} {s : Session}
    {p : Line.Pipeline} {o : Outcome} {w : Workspace} (hidle : s.isBusy = false)
    (hline : Text.isBlankText line = false) (hparse : Line.parse line = .ok p)
    (hran : runPipeline p ((s.entered line d).workspace now d) = (.completed o, w)) :
    s.submit now line d =
      ((s.entered line d).moveTo .processing).settle line d (.completed o w) := by
  have hresult : runLine line ((s.entered line d).workspace now d) = .completed o w := by
    rw [runLine, hparse]
    simp only [hran]
  rw [submit_eq, if_neg (by simp [hidle]), if_neg (by simp [hline]), hresult]

end DesktopTerminal.Session
