import DotMatrix.Interrupts

/-!
# The joypad

Eight buttons share four lines. A program selects the directions, the actions or both by clearing a
select bit, and reads a cleared line for each pressed button of a selected group. A new press
requests the joypad interrupt.
-/

namespace DotMatrix

/-- The buttons, in the order of their lines: directions, then actions. -/
inductive Button
  | right | left | up | down | a | b | select | start
  deriving DecidableEq, Repr

namespace Button

/-- All buttons, in the order of their lines. -/
def all : List Button := [.right, .left, .up, .down, .a, .b, .select, .start]

/-- The button's bit: directions in the lower half, actions in the upper half. -/
def mask : Button → UInt8
  | .right => 0x01
  | .left => 0x02
  | .up => 0x04
  | .down => 0x08
  | .a => 0x10
  | .b => 0x20
  | .select => 0x40
  | .start => 0x80

/-- The button of that name, in any mixture of ASCII cases. -/
def ofName? (name : String) : Option Button :=
  match name.toLower with
  | "right" => some .right
  | "left" => some .left
  | "up" => some .up
  | "down" => some .down
  | "a" => some .a
  | "b" => some .b
  | "select" => some .select
  | "start" => some .start
  | _ => none

end Button

/-- The joypad register and the buttons behind it. -/
structure Joypad where
  /-- The two select bits as last written; a cleared bit selects. -/
  select : UInt8
  /-- One bit for each button that is down. -/
  pressed : UInt8
  deriving DecidableEq, Repr

namespace Joypad

/-- Nothing selected, nothing pressed. -/
def powerOn : Joypad := ⟨0x30, 0⟩

variable (j : Joypad)

/-- Is the button down? -/
def isPressed (button : Button) : Bool := j.pressed &&& button.mask != 0

/-- A program's read: the select bits, and a cleared line for each pressed button of a selected
group. -/
def read : UInt8 :=
  let directions := if j.select &&& 0x10 = 0 then j.pressed &&& 0x0F else 0
  let actions := if j.select &&& 0x20 = 0 then j.pressed >>> 4 else 0
  0xC0 ||| j.select ||| (0x0F &&& ~~~directions &&& ~~~actions)

/-- A program's write: only the select bits count. -/
def write (b : UInt8) : Joypad := { j with select := b &&& 0x30 }

/-- Press or release a button. -/
def setButton (button : Button) (down : Bool) : Joypad :=
  if down then { j with pressed := j.pressed ||| button.mask }
  else { j with pressed := j.pressed &&& ~~~button.mask }

/-- Would pressing or releasing the button be a new press? -/
def isNewPress (button : Button) (down : Bool) : Bool := down && !j.isPressed button

end Joypad

end DotMatrix
