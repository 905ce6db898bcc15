import ReleaseTracker.Settings.Place

/-! Settings laid over others: tables are merged key by key, and any other value takes the place of
what was there. -/

namespace ReleaseTracker.Settings

namespace Given

def ground (old : Given) : Given := if old.isTable then old else .table none []

mutual

def lay (old : Given) : Given → Given
  | .table _ entries => layEntries old.ground entries
  | v => v

def layEntries (below : Given) : List (String × Given) → Given
  | [] => below
  | (key, v) :: rest =>
    let inner := lay ((Toml.under? key below.entries).getD .gap) v
    layEntries (.table below.origin? (Toml.putEntry key inner below.entries)) rest

end

end Given

abbrev Layer := List (Place × Given)

def Layer.ofEntries (origin : Origin) (entries : List (String × Toml)) : Layer :=
  entries.map fun (name, v) => (.ofName name, .ofToml origin v)

def layAll (layers : List Layer) : Given :=
  layers.flatten.foldl (fun below (place, v) => below.update (·.lay v) place) (.table none [])

end ReleaseTracker.Settings
