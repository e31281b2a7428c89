import NestedAccel.Text
import NestedAccel.Word

/-!
# `NestedAccel.Config` — features, version and configuration

What the host offers is fixed when it starts: how many harts there are, how long a batch may be,
which optional features are on, and the version it reports.

## Contents
- **Features.** `Feature`, `FeatureSet`.
- **Versions.** `Version`, `Version.packed`, `Version.ofPacked`.
- **Configurations.** `Config`, `Config.validate`, `Config.featureVersion`.
-/

namespace NestedAccel

/-! ## Features -/

/-- The optional features of the extension. -/
inductive Feature where
  | syncCsr
  | syncHfence
  | syncSret
  /-- Swapping `hstatus` on the way out of the trap handler. -/
  | autoswapCsr
  | batch
  | injectInterrupt
  | statistics
deriving DecidableEq, Repr, Inhabited

namespace Feature

/-- Every feature, in the order of the identifiers. -/
def all : List Feature :=
  [syncCsr, syncHfence, syncSret, autoswapCsr, batch, injectInterrupt, statistics]

/-- The feature's identifier. -/
def id : Feature → Nat
  | syncCsr => 0
  | syncHfence => 1
  | syncSret => 2
  | autoswapCsr => 3
  | batch => 4
  | injectInterrupt => 5
  | statistics => 6

/-- The feature's name. -/
def name : Feature → String
  | syncCsr => "SyncCsr"
  | syncHfence => "SyncHfence"
  | syncSret => "SyncSret"
  | autoswapCsr => "AutoswapCsr"
  | batch => "Batch"
  | injectInterrupt => "InjectInterrupt"
  | statistics => "Statistics"

/-- The feature with the given identifier. -/
def ofId? (n : Word) : Option Feature := all[n.toNat]?

end Feature

/-- A set of features. -/
@[ext] structure FeatureSet where
  /-- The membership bits by identifier. -/
  bits : BitVec 7
deriving DecidableEq, Repr

namespace FeatureSet

/-- The set without features. -/
def empty : FeatureSet := ⟨0⟩

/-- The set of every feature. -/
def full : FeatureSet := ⟨BitVec.allOnes 7⟩

instance : Inhabited FeatureSet := ⟨empty⟩

/-- Feature `f` is in the set. -/
def contains (s : FeatureSet) (f : Feature) : Bool := s.bits.getLsbD f.id

/-- The set with feature `f`. -/
def insert (s : FeatureSet) (f : Feature) : FeatureSet := ⟨s.bits ||| BitVec.twoPow 7 f.id⟩

/-- The set without feature `f`. -/
def erase (s : FeatureSet) (f : Feature) : FeatureSet := ⟨s.bits &&& ~~~BitVec.twoPow 7 f.id⟩

/-- The features of the set, in the order of the identifiers. -/
def toList (s : FeatureSet) : List Feature := Feature.all.filter s.contains

@[simp] theorem contains_full (f : Feature) : full.contains f = true := by
  cases f <;> rfl

@[simp] theorem contains_empty (f : Feature) : empty.contains f = false := by
  cases f <;> rfl

theorem contains_insert (s : FeatureSet) (f g : Feature) :
    (s.insert f).contains g = (s.contains g || decide (f = g)) := by
  simp only [contains, insert, BitVec.getLsbD_or, BitVec.getLsbD_twoPow]
  cases f <;> cases g <;> rfl

theorem contains_erase (s : FeatureSet) (f g : Feature) :
    (s.erase f).contains g = (s.contains g && !decide (f = g)) := by
  cases f <;> cases g <;> simp [contains, erase, Feature.id]

end FeatureSet

/-! ## Versions -/

/-- A version of the extension. -/
structure Version where
  /-- Counts incompatible changes. -/
  major : UInt16
  /-- Counts compatible additions. -/
  minor : UInt16
  /-- Counts fixes. -/
  patch : UInt16
deriving DecidableEq, Repr, Inhabited

namespace Version

/-- The version packed into one word: `major`, `minor` and `patch` in fields of sixteen bits. -/
def packed (v : Version) : Word :=
  .ofNat (v.major.toNat <<< 32 + v.minor.toNat <<< 16 + v.patch.toNat)

/-- The version held in a word. Bits above the fields are ignored. -/
def ofPacked (w : Word) : Version :=
  ⟨.ofNat (Word.field w 32 16), .ofNat (Word.field w 16 16), .ofNat (Word.field w 0 16)⟩

/-- The version of the extension implemented here. -/
def current : Version := ⟨1, 0, 0⟩

end Version

/-! ## Configurations -/

/-- What the host offers. -/
structure Config where
  /-- The number of harts; they are numbered from zero. -/
  harts : Nat := 1
  /-- The largest number of descriptors in a batch. -/
  maxBatch : Nat := 64
  /-- The features that are on. -/
  features : FeatureSet := .full
  /-- The version reported. -/
  version : Version := .current
deriving DecidableEq, Repr, Inhabited

namespace Config

/-- Why a configuration cannot be used. -/
inductive Error where
  | noHarts
  | tooManyHarts (harts : Nat)
  | batchLenOutOfRange (len : Nat)
  /-- A feature is on that needs the given one, which is off. -/
  | missingDependency (feature : Feature)
deriving DecidableEq, Repr

namespace Error

/-- The error's name. -/
def name : Error → String
  | noHarts => "NoHarts"
  | tooManyHarts _ => "TooManyHarts"
  | batchLenOutOfRange _ => "BatchLenOutOfRange"
  | missingDependency _ => "MissingDependency"

/-- The error's one-line text. -/
def text : Error → String
  | noHarts => "NoHarts"
  | tooManyHarts n => Text.applied "TooManyHarts" [toString n]
  | batchLenOutOfRange n => Text.applied "BatchLenOutOfRange" [toString n]
  | missingDependency f => Text.applied "MissingDependency" [f.name]

end Error

/-- The largest number of harts. -/
def maxHarts : Nat := 64

/-- The largest batch length that can be configured. -/
def batchLimit : Nat := 256

/-- Accepts a configuration that can be used: a supported number of harts, a supported batch
    length, and no feature without the one it needs. -/
def validate (c : Config) : Except Error Unit :=
  if c.harts = 0 then .error .noHarts
  else if maxHarts < c.harts then .error (.tooManyHarts c.harts)
  else if c.maxBatch = 0 ∨ batchLimit < c.maxBatch then .error (.batchLenOutOfRange c.maxBatch)
  else if c.features.contains .autoswapCsr ∧ ¬c.features.contains .syncSret then
    .error (.missingDependency .syncSret)
  else .ok ()

/-- The version reported for the feature with the given identifier: one if it is on, zero if it is
    off or unknown. -/
def featureVersion (c : Config) (id : Word) : Word :=
  match Feature.ofId? id with
  | some f => if c.features.contains f then 1 else 0
  | none => 0

end Config

end NestedAccel
