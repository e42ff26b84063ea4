import SoapRelay.Platform

/-!
# Runs of the platform side alone

Messages are handled one after the other, and after each one the calls that were made and the
replies that were published are collected.
-/

namespace SoapRelay

structure PlatformSession where
  platform : Platform
  scene : Scene Traffic

namespace PlatformSession

def start (p : Platform) (hash : String → UInt64) : PlatformSession := ⟨p, ⟨0, .empty, false, .start hash⟩⟩

structure Shown where
  outcome : Outcome
  calls : List OutboundCall
  replies : List String

def handle (s : PlatformSession) (message : String) : Shown × PlatformSession :=
  let before := s.scene.env.calls.length
  let (scene, outcome) := s.platform.handle s.scene message
  let (replies, bus) := scene.bus.drain s.platform.repliesTopic
  (⟨outcome, scene.env.calls.drop before, replies⟩, { s with scene := scene.withBus bus })

def close (s : PlatformSession) : PlatformSession :=
  { s with scene := s.scene.withBus (s.scene.bus.unsubscribe s.platform.repliesTopic) }

end PlatformSession

end SoapRelay
