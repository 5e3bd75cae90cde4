import SystolicGemm.Job.Image

/-!
# Registers

The register file holds the image of the next job, a count of finished jobs and
the status word. Three further registers take writes for their effect only, and
the accelerator has to act on them.
-/

namespace SystolicGemm

/-- A register of the job image. -/
inductive JobRegister where
  | xAddr
  | wAddr
  | yAddr
  | zAddr
  | xLength
  | wLength
  | yLength
  | zLength
  | wTiles
  | xTiles
  | leftovers
  | xPitch
  | wPitch
  | yzPitch
  deriving DecidableEq, Repr

/-- A register. -/
inductive Register where
  | trigger
  | finishedJobs
  | status
  | irqClear
  | softClear
  | job (r : JobRegister)
  deriving DecidableEq, Repr

/-- What the accelerator has to do after a write. -/
inductive RegisterEffect where
  | none
  | trigger
  | irqClear
  | softClear
  deriving DecidableEq, Repr

/-- A bit of the status word. -/
inductive StatusBit where
  | busy
  | irq
  | rejected
  deriving DecidableEq, Repr

/-- The bit as a word. -/
def StatusBit.mask : StatusBit → UInt32
  | busy => 1
  | irq => 2
  | rejected => 4

namespace JobRegister

/-- The job registers in the order of their offsets. -/
def all : List JobRegister :=
  [xAddr, wAddr, yAddr, zAddr, xLength, wLength, yLength, zLength,
    wTiles, xTiles, leftovers, xPitch, wPitch, yzPitch]

/-- The byte offset in the register space. -/
def offset : JobRegister → UInt32
  | xAddr => 0x40
  | wAddr => 0x44
  | yAddr => 0x48
  | zAddr => 0x4C
  | xLength => 0x50
  | wLength => 0x54
  | yLength => 0x58
  | zLength => 0x5C
  | wTiles => 0x60
  | xTiles => 0x64
  | leftovers => 0x68
  | xPitch => 0x6C
  | wPitch => 0x70
  | yzPitch => 0x74

end JobRegister

namespace Register

/-- The byte offset in the register space. -/
def offset : Register → UInt32
  | trigger => 0x00
  | finishedJobs => 0x08
  | status => 0x0C
  | irqClear => 0x10
  | softClear => 0x14
  | job r => r.offset

/-- All registers. -/
def all : List Register :=
  [trigger, finishedJobs, status, irqClear, softClear] ++ JobRegister.all.map job

/-- The register at an offset, if there is one. -/
def ofOffset (o : UInt32) : Option Register := all.find? (·.offset == o)

theorem ofOffset_offset (r : Register) : ofOffset r.offset = some r := by
  cases r with
  | job r => cases r <;> decide
  | _ => decide

theorem offset_eq_of_ofOffset {o : UInt32} {r : Register} (h : ofOffset o = some r) :
    r.offset = o := by
  unfold ofOffset at h
  have hb := List.find?_some h
  exact beq_iff_eq.mp hb

theorem ofOffset_job (r : JobRegister) : ofOffset r.offset = some (job r) :=
  ofOffset_offset (job r)

end Register

namespace JobImage

/-- The word in a job register. -/
def get (j : JobImage) : JobRegister → UInt32
  | .xAddr => j.xAddr
  | .wAddr => j.wAddr
  | .yAddr => j.yAddr
  | .zAddr => j.zAddr
  | .xLength => j.xLength
  | .wLength => j.wLength
  | .yLength => j.yLength
  | .zLength => j.zLength
  | .wTiles => j.wTiles.pack
  | .xTiles => j.xTiles.pack
  | .leftovers => j.leftovers.pack
  | .xPitch => j.xPitch
  | .wPitch => j.wPitch
  | .yzPitch => j.yzPitch

/-- The image with another word in a job register. -/
def set (j : JobImage) (r : JobRegister) (word : UInt32) : JobImage :=
  match r with
  | .xAddr => { j with xAddr := word }
  | .wAddr => { j with wAddr := word }
  | .yAddr => { j with yAddr := word }
  | .zAddr => { j with zAddr := word }
  | .xLength => { j with xLength := word }
  | .wLength => { j with wLength := word }
  | .yLength => { j with yLength := word }
  | .zLength => { j with zLength := word }
  | .wTiles => { j with wTiles := .unpack word }
  | .xTiles => { j with xTiles := .unpack word }
  | .leftovers => { j with leftovers := .unpack word }
  | .xPitch => { j with xPitch := word }
  | .wPitch => { j with wPitch := word }
  | .yzPitch => { j with yzPitch := word }

/-- The register writes that program the image, in the order of the offsets. -/
def writes (j : JobImage) : List (UInt32 × UInt32) :=
  JobRegister.all.map fun r => (r.offset, j.get r)

/-- A register holds the word last written to it. -/
theorem get_set_self (j : JobImage) (r : JobRegister) (word : UInt32) :
    (j.set r word).get r = word := by
  cases r with
  | wTiles | xTiles => exact TileCounts.pack_unpack word
  | leftovers => exact Leftovers.pack_unpack word
  | _ => rfl

theorem get_set_of_ne (j : JobImage) {r t : JobRegister} (word : UInt32) (h : r ≠ t) :
    (j.set r word).get t = j.get t := by
  cases r <;> cases t <;> first | exact (h rfl).elim | rfl

end JobImage

/-- The state behind the registers. -/
structure RegisterFile where
  job : JobImage
  finishedJobs : UInt32
  status : UInt32
  deriving DecidableEq, Repr, Inhabited

namespace RegisterFile

/-- The registers after reset. -/
def reset : RegisterFile := ⟨.blank, 0, 0⟩

/-- Writes a register. Writes to read-only and to absent registers are lost. -/
def write (f : RegisterFile) (offset value : UInt32) : RegisterEffect × RegisterFile :=
  match Register.ofOffset offset with
  | some .trigger => (.trigger, f)
  | some .irqClear => (.irqClear, f)
  | some .softClear => (.softClear, f)
  | some .finishedJobs | some .status | none => (.none, f)
  | some (.job r) => (.none, { f with job := f.job.set r value })

/-- Reads a register. Those that are absent or only take writes read as zero. -/
def read (f : RegisterFile) (offset : UInt32) : UInt32 :=
  match Register.ofOffset offset with
  | some .finishedJobs => f.finishedJobs
  | some .status => f.status
  | some (.job r) => f.job.get r
  | some .trigger | some .irqClear | some .softClear | none => 0

/-- The registers with a blank job image. -/
def clearJob (f : RegisterFile) : RegisterFile := { f with job := .blank }

/-- The registers after one more finished job; the count wraps around. -/
def jobFinished (f : RegisterFile) : RegisterFile := { f with finishedJobs := f.finishedJobs + 1 }

/-- The registers with the status bits of a mask set. -/
def raise (f : RegisterFile) (mask : UInt32) : RegisterFile :=
  { f with status := f.status ||| mask }

/-- The registers with the status bits of a mask cleared. -/
def lower (f : RegisterFile) (mask : UInt32) : RegisterFile :=
  { f with status := f.status &&& ~~~mask }

/-- Whether a status bit is set. -/
def shows (f : RegisterFile) (b : StatusBit) : Bool := f.status &&& b.mask != 0

theorem write_job (f : RegisterFile) (r : JobRegister) (word : UInt32) :
    f.write r.offset word = (.none, { f with job := f.job.set r word }) := by
  rw [write, Register.ofOffset_job]

theorem read_job (f : RegisterFile) (r : JobRegister) : f.read r.offset = f.job.get r := by
  rw [read, Register.ofOffset_job]

end RegisterFile

end SystolicGemm
