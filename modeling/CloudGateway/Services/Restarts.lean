import CloudGateway.Services.AuthServices

/-!
# `AuthService` over several lives of the process

When the process ends, what the service had in memory is gone, and the next process
constructs a new one, perhaps with another configuration. The credentials file is
still there, and a vehicle that exists already is logged in with what it holds.
-/

namespace CloudGateway.Services

/-- The process has ended, and `main` constructs the service again. The histories go on. -/
def AuthWorld.restart (w : AuthWorld) (config : Config) : AuthWorld :=
  { AuthWorld.start config with file := w.file, posts := w.posts, reads := w.reads }

namespace Restarts

/-- What can happen to the service and its file. -/
inductive Action where
  | call (a : AuthWorld.Action)
  | restart (config : Config)

/-- One step. -/
def step [JsonLibrary] (w : AuthWorld) : Action → Option AuthWorld
  | .call a => w.step a
  | .restart config => some (w.restart config)

/-- The service, from the first start of the gateway. -/
def machine [JsonLibrary] (config : Config) : Reactive.Machine AuthWorld Action where
  init := .start config
  step := step

end Restarts

end CloudGateway.Services
