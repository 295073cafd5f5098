import Permify.Dsl.Syntax
import Permify.Dsl.Parser
import Permify.Dsl.Parse
import Permify.Dsl.Termination
import Permify.Dsl.References
import Permify.Dsl.SourceOrder
import Permify.Dsl.Grammar
import Permify.Dsl.RoundTrip
import Permify.Memory.Pagination
import Permify.Memory.RelationshipReader
import Permify.Memory.RelationshipWriter
import Permify.Memory.SchemaWriter
import Permify.Postgres.GarbageCollector
import Permify.Development.Graph
