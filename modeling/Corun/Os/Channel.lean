import Corun.Failure

namespace Corun.Os

structure Channel where
  bytes : List UInt8
  readers : Nat
  writers : Nat
deriving DecidableEq

namespace Channel

def unheld : Channel := ⟨[], 0, 0⟩

/-- A reader waits only while somebody may still write. -/
def blocks (c : Channel) : Bool := c.bytes.isEmpty && 0 < c.writers

/-- Takes up to a number of bytes. When there are none and there is no writer, that is the end. -/
def read (count : Nat) (c : Channel) : List UInt8 × Channel :=
  (c.bytes.take count, { c with bytes := c.bytes.drop count })

/-- Writing needs a reader, except for writing nothing. -/
def write (bytes : List UInt8) (c : Channel) : Except Errno (Nat × Channel) :=
  if bytes = [] then .ok (0, c)
  else if c.readers = 0 then .error .brokenPipe
  else .ok (bytes.length, { c with bytes := c.bytes ++ bytes })

def dropReader (c : Channel) : Channel := { c with readers := c.readers - 1 }

def dropWriter (c : Channel) : Channel := { c with writers := c.writers - 1 }

end Channel

inductive Pipe.End where
  | read
  | write
deriving DecidableEq

structure Pipe where
  bytes : List UInt8
  holdsRead : Bool
  holdsWrite : Bool

namespace Pipe

def create : Pipe := ⟨[], true, true⟩

def isOpen (p : Pipe) : End → Bool
  | .read => p.holdsRead
  | .write => p.holdsWrite

def close (p : Pipe) : End → Pipe
  | .read => { p with holdsRead := false }
  | .write => { p with holdsWrite := false }

def channel (p : Pipe) : Channel := ⟨p.bytes, p.holdsRead.toNat, p.holdsWrite.toNat⟩

def blocks (p : Pipe) : Bool := p.holdsRead && p.channel.blocks

def read (count : Nat) (p : Pipe) : Except Failure (List UInt8) × Pipe :=
  if p.holdsRead then
    let (bytes, channel) := p.channel.read count
    (.ok bytes, { p with bytes := channel.bytes })
  else (.error (.ofCause (.endClosed true)), p)

def write (bytes : List UInt8) (p : Pipe) : Except Failure Nat × Pipe :=
  if p.holdsWrite then
    match p.channel.write bytes with
    | .ok (count, channel) => (.ok count, { p with bytes := channel.bytes })
    | .error e => (.error ((Failure.ofCause (.system e)).within .writingPipe), p)
  else (.error (.ofCause (.endClosed false)), p)

def readBefore (count : Nat) (later : List UInt8) (p : Pipe) : Except Failure (List UInt8) × Pipe :=
  if p.blocks then (p.write later).2.read count
  else
    let (r, p) := p.read count
    (r, (p.write later).2)

end Pipe

end Corun.Os
