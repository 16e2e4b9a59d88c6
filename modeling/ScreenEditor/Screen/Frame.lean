import ScreenEditor.Screen.Area
import ScreenEditor.Screen.StatusLine

/-!
# Frames

What a terminal shows at one moment: the text grid, under it the status line in reverse video, and
the cursor.
-/

namespace ScreenEditor

/-- What a terminal shows, and how many bells were rung since it last showed something. -/
structure Frame where
  grid : Grid
  cursor : Nat × Nat
  bells : Nat

/-- The cells for a terminal of the given size that is to show a text grid and a status line. -/
def Grid.forTerminal (rows cols : Nat) (text : Grid) (status : String) : Grid :=
  let terminal := Area.clipped 0 0 cols rows
  let g := (Grid.blank rows cols).overlay text 0 0 terminal.text.height terminal.text.width
  if terminal.status.height = 0 then g else g.writeStatus terminal.status.y status

end ScreenEditor
