import LuisaCompute.Arc
import LuisaCompute.Runtime.Model
import LuisaCompute.Runtime.Api
import LuisaCompute.Runtime.Program
import LuisaCompute.Runtime.Invariant
import LuisaCompute.Runtime.Steps
import LuisaCompute.Runtime.Frees
import LuisaCompute.Runtime.Routing
import LuisaCompute.Runtime.Reachable
import LuisaCompute.Runtime.Lifetime
import LuisaCompute.Runtime.Calls
import LuisaCompute.Runtime.Cleanup
