import Zstats.Collector.Rate
import Zstats.Framework.Diffing

namespace Zstats

open Diffing

inductive IpAddr where
  | v4 (bits : BitVec 32)
  | v6 (bits : BitVec 128)
  deriving DecidableEq, Repr

/-- `IpAddr::is_loopback`: `127.0.0.0/8`, or `::1`. -/
def IpAddr.isLoopback : IpAddr → Bool
  | .v4 bits => bits >>> 24 == 127
  | .v6 bits => bits == 1

def hasLoopbackAddress (addresses : List IpAddr) : Bool := addresses.any IpAddr.isLoopback

structure NetCounters where
  receivedBytes : ℕ
  transmittedBytes : ℕ
  receivedPackets : ℕ
  transmittedPackets : ℕ
  receivedErrors : ℕ
  transmittedErrors : ℕ
  deriving DecidableEq, Repr

/-- An interface as sysinfo lists it. -/
structure NetworkData where
  interface : String
  addresses : List IpAddr
  counters : NetCounters
  deriving DecidableEq, Repr

structure NetworkConfig where
  collectNetworks : Bool
  networkRefreshInterval : ℕ

structure NetworkChannel where
  lastNetworkRefresh : Option ℕ
  lastNetCounters : List (String × NetCounters)
  cachedNetworks : Option (List NetworkSnapshot)

structure NetworkRound where
  span : Span
  interfaces : List NetworkData

namespace NetworkChannel

def new : NetworkChannel := ⟨none, [], none⟩

/-- Without something to subtract the byte rates are zero and the others unknown. -/
def snapshotOf (s : NetworkChannel) (elapsed : Option ℕ) (data : NetworkData) : NetworkSnapshot :=
  let rate (pick : NetCounters → ℕ) : Option ℕ :=
    Option.map₂ (fun elapsed prev => ratePerSec (pick prev) (pick data.counters) elapsed) elapsed
      (lookupLast s.lastNetCounters data.interface)
  { interface := data.interface
    isLoopback := hasLoopbackAddress data.addresses
    receivedBytesPerSec := (rate NetCounters.receivedBytes).getD 0
    transmittedBytesPerSec := (rate NetCounters.transmittedBytes).getD 0
    receivedPacketsPerSec := rate NetCounters.receivedPackets
    transmittedPacketsPerSec := rate NetCounters.transmittedPackets
    receivedErrorsPerSec := rate NetCounters.receivedErrors
    transmittedErrorsPerSec := rate NetCounters.transmittedErrors }

def collectNetworks (config : NetworkConfig) (s : NetworkChannel) (r : NetworkRound) :
    NetworkChannel × Option (List NetworkSnapshot) :=
  if !config.collectNetworks then (s, none)
  else if !due config.networkRefreshInterval s.lastNetworkRefresh r.span.start then
    (s, s.cachedNetworks)
  else
    let elapsed := s.lastNetworkRefresh.map (durationSince r.span.start)
    let snapshots := r.interfaces.map (snapshotOf s elapsed)
    ({ lastNetworkRefresh := some r.span.finish
       lastNetCounters := r.interfaces.map fun data => (data.interface, data.counters)
       cachedNetworks := some snapshots }, some snapshots)

end NetworkChannel

end Zstats
