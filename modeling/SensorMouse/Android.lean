import Mathlib.Data.List.Basic

/-!
# Android values the sources name

Action and key codes with the values of the platform, and motion events with the data the sources
put into them.
-/

namespace SensorMouse.Android

namespace KeyEvent

def keycodeHome : Int := 3
def keycodeBack : Int := 4
def keycodeMenu : Int := 82
def keycodeSearch : Int := 84

end KeyEvent

/-- One finger of a motion event: its `PointerProperties` and its `PointerCoords`. -/
structure Pointer where
  id : Nat
  toolType : Nat
  x : Int
  y : Int
  pressure : Nat
  size : Nat
  deriving DecidableEq, Repr

structure MotionEvent where
  downTime : Int
  eventTime : Int
  action : Int
  pointers : List Pointer
  deriving DecidableEq, Repr

namespace MotionEvent

def actionDown : Int := 0
def actionUp : Int := 1
def actionMove : Int := 2
def actionPointer2Down : Int := 261
def actionPointer2Up : Int := 262

def toolTypeUnknown : Nat := 0
def toolTypeFinger : Nat := 1

/-- `obtain` with arrays of properties and coordinates: it copies the first `pointerCount`. -/
def obtainPointers (downTime eventTime action : Int) (pointerCount : Nat)
    (pointers : List Pointer) : MotionEvent :=
  ⟨downTime, eventTime, action, pointers.take pointerCount⟩

/-- `obtain` with one position: a single pointer of unit pressure and size. -/
def obtainSingle (downTime eventTime action x y : Int) : MotionEvent :=
  ⟨downTime, eventTime, action, [⟨0, toolTypeUnknown, x, y, 1, 1⟩]⟩

end MotionEvent

end SensorMouse.Android
