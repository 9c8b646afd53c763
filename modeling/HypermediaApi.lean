import HypermediaApi.Text.Basic
import HypermediaApi.Text.Casing
import HypermediaApi.Text.Quoted
import HypermediaApi.Decimal.Shortest
import HypermediaApi.Json.Fields
import HypermediaApi.Json.Writer
import HypermediaApi.Collection
import HypermediaApi.Blog.Service
import HypermediaApi.Settings.Sources
import HypermediaApi.Sample.Article
import HypermediaApi.Sample.Positional
import HypermediaApi.Sample.Row
import HypermediaApi.Settings.Value
import HypermediaApi.Proofs.Schema.Paths
import HypermediaApi.Proofs.Selection.Agreement
import HypermediaApi.Proofs.Traversal
import HypermediaApi.Proofs.Text.Entries
import HypermediaApi.Proofs.Ordering.Agreement
import HypermediaApi.Proofs.Ordering.Precedence
import HypermediaApi.Proofs.Ordering.Stability
import HypermediaApi.Proofs.Ordering.Successive
import HypermediaApi.Proofs.Ordering.InputOrder
import HypermediaApi.Proofs.Ordering.Meaning
import HypermediaApi.Proofs.Link.Template
import HypermediaApi.Proofs.Link.Mount
import HypermediaApi.Proofs.Parameters.Query
import HypermediaApi.Proofs.Collection.Outcome
import HypermediaApi.Proofs.Blog.Posts
import HypermediaApi.Proofs.Blog.Reading
import HypermediaApi.Proofs.Blog.Reachable
import HypermediaApi.Proofs.Link.Following
import HypermediaApi.Proofs.Collection.Walk
import HypermediaApi.Proofs.Blog.Walk
import HypermediaApi.Proofs.Blog.Commit
import HypermediaApi.Proofs.Blog.Session
import HypermediaApi.Proofs.Blog.Isolation
import HypermediaApi.Proofs.Blog.Deletion
import HypermediaApi.Proofs.Blog.Writing
import HypermediaApi.Proofs.Blog.Startup
import HypermediaApi.Proofs.Blog.Validity
import HypermediaApi.Proofs.Collection.Representations
import HypermediaApi.Proofs.Collection.Items
import HypermediaApi.Proofs.Blog.Answers
import HypermediaApi.Proofs.Blog.OneByOne
import HypermediaApi.Proofs.Link.Carrying
import HypermediaApi.Proofs.Ordering.Registration
import HypermediaApi.Proofs.Blog.Creation
import HypermediaApi.Proofs.Text.Joining
import HypermediaApi.Proofs.Text.Words
import HypermediaApi.Proofs.Ordering.Grammar
import HypermediaApi.Proofs.Ordering.Composition
import HypermediaApi.Proofs.Schema.Canonical
import HypermediaApi.Proofs.Selection.Requested
import HypermediaApi.Proofs.Link.Cutting
import HypermediaApi.Proofs.Blog.Pages
import HypermediaApi.Proofs.Schema.WellNamed
import HypermediaApi.Proofs.Selection.Whole
import HypermediaApi.Proofs.Link.Leftover
import HypermediaApi.Proofs.Link.Neighbours
import HypermediaApi.Proofs.Blog.Seeding
import HypermediaApi.Proofs.Blog.Patching
import HypermediaApi.Proofs.Page.Header
import HypermediaApi.Proofs.Blog.PatchBody
import HypermediaApi.Proofs.Api.Shaped
import HypermediaApi.Proofs.Ordering.Lookup
import HypermediaApi.Proofs.Ordering.SharedRegistry
import HypermediaApi.Proofs.Api.Disclosure
import HypermediaApi.Proofs.Settings.Precedence
