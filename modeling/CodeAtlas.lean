import CodeAtlas.Api
import CodeAtlas.Main
import CodeAtlas.Proofs.CallGraph.Callers
import CodeAtlas.Proofs.CallGraph.Displacement
import CodeAtlas.Proofs.CallGraph.Edges
import CodeAtlas.Proofs.CallGraph.MostConnected
import CodeAtlas.Proofs.Clustering
import CodeAtlas.Proofs.Diagram
import CodeAtlas.Proofs.Git
import CodeAtlas.Proofs.Graph.LayeredOrder
import CodeAtlas.Proofs.Graph.Leaves
import CodeAtlas.Proofs.Hosting.Addresses
import CodeAtlas.Proofs.Hosting.Clones
import CodeAtlas.Proofs.Repository.CodeFiles
import CodeAtlas.Proofs.Repository.Languages
import CodeAtlas.Proofs.Server.CacheDamage
import CodeAtlas.Proofs.Server.Cooldown
import CodeAtlas.Proofs.Server.HomePage
import CodeAtlas.Proofs.Server.JobFile
import CodeAtlas.Proofs.Server.Reader
import CodeAtlas.Proofs.Settings
import CodeAtlas.Proofs.Site
import CodeAtlas.Proofs.Source.Lines
import CodeAtlas.Proofs.Wiki.Illustration
import CodeAtlas.Proofs.Wiki.TreeReaders
