import CloudGateway.Json

/-!
# `MqttRouter`

One handler for each topic. A handler changes a state, and may throw; what it
had changed before it threw stays changed.
-/

namespace CloudGateway.Services

/-- What C++ code may throw. -/
inductive Exception where
  /-- `nlohmann::json::exception`, a `std::exception`. -/
  | json (e : JsonException)
  /-- Any other `std::exception`. -/
  | std
  /-- Anything else. -/
  | other
deriving DecidableEq, Repr

/-- `MqttRouter::Handler`: how it ends, and what it has made of the state. -/
abbrev Handler (σ : Type) := Bytes → σ → Except Exception Unit × σ

/-- The member `handlers_`. -/
structure MqttRouter (σ : Type) where
  handlers : List (Bytes × Handler σ)

namespace MqttRouter

variable {σ : Type}

/-- No handlers. -/
def new : MqttRouter σ := { handlers := [] }

/-- `on`: `handlers_[topic] = std::move(handler)`. -/
def on (r : MqttRouter σ) (topic : Bytes) (handler : Handler σ) : MqttRouter σ :=
  { r with handlers := (topic, handler) :: r.handlers.filter (fun h => h.1 != topic) }

/-- `dispatch`. -/
def dispatch (r : MqttRouter σ) (topic payload : Bytes) (s : σ) : Except Exception Unit × σ :=
  match r.handlers.lookup topic with
  | none => (.ok (), s)
  | some handler =>
      match handler payload s with
      | (.ok _, s) => (.ok (), s)
      -- `catch (const nlohmann::json::exception&)`
      | (.error (.json _), s) => (.ok (), s)
      -- `catch (const std::exception&)`
      | (.error .std, s) => (.ok (), s)
      | (.error .other, s) => (.error .other, s)

end MqttRouter

end CloudGateway.Services
