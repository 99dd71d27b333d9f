/-!
# Input of a terminal

The events a terminal reports, and the ones among them a host reacts to.
-/

namespace ViewTree.Terminal

/-- A key. -/
inductive Key where
  | char (c : Char)
  /-- Any other key, by its name. -/
  | named (name : String)
deriving DecidableEq, Repr

namespace Key

def tab : Key := named "Tab"
def backTab : Key := named "BackTab"
def left : Key := named "Left"
def right : Key := named "Right"
def enter : Key := named "Enter"
def esc : Key := named "Esc"

/-- The key with a name; a name of one character is that character. -/
def ofName (name : String) : Key :=
  match name.toList with
  | [c] => char c
  | _ => named name

/-- The name of a key. -/
def name : Key → String
  | char c => String.singleton c
  | named name => name

end Key

/-- What happens to a key. -/
inductive KeyAction where
  | press | release | hold
deriving DecidableEq, Repr

/-- An event of a terminal. -/
inductive TerminalEvent where
  | key (action : KeyAction) (key : Key)
  | resize
  /-- Focus changes, pasted text and the mouse. -/
  | other
deriving Repr

/-- What a host reacts to. -/
inductive TerminalInput where
  | key (key : Key)
  | resize
deriving DecidableEq, Repr

/-- What a host makes of an event: only presses of keys and resizes count. -/
def TerminalInput.ofEvent? : TerminalEvent → Option TerminalInput
  | .key .press pressed => some (.key pressed)
  | .resize => some .resize
  | _ => none

end ViewTree.Terminal
