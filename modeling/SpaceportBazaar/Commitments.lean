import SpaceportBazaar.Dict
import SpaceportBazaar.Domain

namespace SpaceportBazaar

/-- What was sent and is not yet seen in a snapshot or rejected. -/
structure CommitmentTracker where
  inflight : Dict String Bundle

namespace CommitmentTracker

def new : CommitmentTracker := ⟨.empty⟩

def registerInflight (tracker : CommitmentTracker) (requestId : String)
    (give : Bundle) : CommitmentTracker :=
  ⟨tracker.inflight.set requestId give⟩

def resolveInflight (tracker : CommitmentTracker) (requestId : String) : CommitmentTracker :=
  ⟨tracker.inflight.erase requestId⟩

def inflightTotal (tracker : CommitmentTracker) : Bundle := tracker.inflight.values.sum

/-- What our still-open offers have promised away. -/
def outstandingConfirmedGive (snapshot : Snapshot) : Bundle :=
  (snapshot.outgoingOpenOffers.map Offer.give).sum

def availableToCommit (tracker : CommitmentTracker) (snapshot : Snapshot) : Bundle :=
  (snapshot.me.inventory.saturatingSub (outstandingConfirmedGive snapshot)).saturatingSub
    tracker.inflightTotal

/-- Whatever is left free is stock no open or in-flight offer promises. -/
theorem availableToCommit_get (tracker : CommitmentTracker) (snapshot : Snapshot) (r : Resource) :
    (tracker.availableToCommit snapshot).get r = snapshot.me.inventory.get r -
      ((outstandingConfirmedGive snapshot).get r + tracker.inflightTotal.get r) := by
  simp [availableToCommit, Nat.sub_sub]

end CommitmentTracker

end SpaceportBazaar
