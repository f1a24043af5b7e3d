import CarrierTransport.Vec3

/-!
# The sensitive volume
-/

namespace CarrierTransport

/-- The shape of a sensor in its own frame.  `intercept` is the point at which
the segment from an inner to an outer point leaves the sensor. -/
structure Sensor (α : Type) where
  contains : Vec3 α → Bool
  intercept : Vec3 α → Vec3 α → Vec3 α
  center : Vec3 α
  /-- The extent along each axis; `z` is the thickness. -/
  size : Vec3 α
  /-- The position in the frame of the experiment. -/
  toGlobal : Vec3 α → Vec3 α

namespace Sensor

variable {α : Type} [Scalar α]

def topFace (s : Sensor α) : α := s.center.z + s.size.z / 2.0

def backFace (s : Sensor α) : α := s.center.z - s.size.z / 2.0

end Sensor

structure Box (α : Type) where
  center : Vec3 α
  size : Vec3 α

namespace Box

variable {α : Type} [Scalar α]

def withCenter (b : Box α) (center : Vec3 α) : Box α :=
  { b with center := center }

def low (b : Box α) : Vec3 α := b.center - b.size.dividedBy 2.0

def high (b : Box α) : Vec3 α := b.center + b.size.dividedBy 2.0

/-- Whether a coordinate lies between two faces, the faces included. -/
def between (low high x : α) : Bool := low ≤ x && x ≤ high

def contains (b : Box α) (p : Vec3 α) : Bool :=
  between b.low.x b.high.x p.x && between b.low.y b.high.y p.y &&
    between b.low.z b.high.z p.z

def faceBeyond? (low high outside : α) : Option α :=
  if high < outside then some high
  else if outside < low then some low
  else none

/-- The part of a segment that is left when it has to stop at the face its end
lies beyond along one axis. -/
def cutAt (low high inside outside part : α) : α :=
  match faceBeyond? low high outside with
  | none => part
  | some face =>
      let direction := outside - inside
      if direction != 0.0 then Scalar.min part ((face - inside) / direction)
      else part

/-- The part of the segment from `inside` to `outside` that lies in the box. -/
def exitPart (b : Box α) (inside outside : Vec3 α) : α :=
  let x := cutAt b.low.x b.high.x inside.x outside.x 1.0
  let xy := cutAt b.low.y b.high.y inside.y outside.y x
  cutAt b.low.z b.high.z inside.z outside.z xy

def intercept (b : Box α) (inside outside : Vec3 α) : Vec3 α :=
  inside + Scalar.max (b.exitPart inside outside) 0.0 • (outside - inside)

/-- A sensor with the shape of a box, moved by `offset` in the frame of the
experiment. -/
def sensor (b : Box α) (offset : Option (Vec3 α)) : Sensor α where
  contains := b.contains
  intercept := b.intercept
  center := b.center
  size := b.size
  toGlobal p := match offset with
    | none => p
    | some offset => p + offset

end Box

end CarrierTransport
