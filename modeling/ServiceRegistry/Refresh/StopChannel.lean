/-!
# Requests to stop

A stop channel joins one trigger to any number of signals.  A stop has been requested when the
trigger was pulled or is gone, and every signal, whenever it was made, sees it.
-/

namespace ServiceRegistry.Refresh

/-- A trigger and the signals that listen to it. -/
structure StopChannel where
  pulled : Bool := false
  triggerHeld : Bool := true
  signals : Nat := 1
deriving DecidableEq, Repr, Inhabited

namespace StopChannel

def requested (channel : StopChannel) : Bool := channel.pulled || !channel.triggerHeld

/-- Pulls the trigger, if it is still there. -/
def pull (channel : StopChannel) : StopChannel :=
  { channel with pulled := channel.pulled || channel.triggerHeld }

def dropTrigger (channel : StopChannel) : StopChannel := { channel with triggerHeld := false }

def addSignal (channel : StopChannel) : StopChannel :=
  { channel with signals := if channel.signals = 0 then 0 else channel.signals + 1 }

def dropSignal (channel : StopChannel) : StopChannel :=
  { channel with signals := channel.signals - 1 }

/-- What each live signal sees: whether a stop is requested, and whether waiting for one is over. -/
def seen (channel : StopChannel) : List (Bool × Bool) :=
  List.replicate channel.signals (channel.requested, channel.requested)

end StopChannel

end ServiceRegistry.Refresh
