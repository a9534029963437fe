import ArtPlatform.Foundation.AppendHistory
import ArtPlatform.Foundation.Interleaving
import ArtPlatform.ManagementPanel.AssemblyCancellation
import ArtPlatform.ManagementPanel.ExternalIds
import ArtPlatform.ManagementPanel.LogAppends
import ArtPlatform.ManagementPanel.ModuleIdentity
import ArtPlatform.ManagementPanel.ModuleManagement
import ArtPlatform.ManagementPanel.ProjectStreams
import ArtPlatform.ManagementPanel.Restart
import ArtPlatform.ManagementPanel.BuildResources
import ArtPlatform.ManagementPanel.RebuildIsolation
import ArtPlatform.ManagementPanel.CancellationCleanup
import ArtPlatform.Agent.OpenShiftNamespace
import ArtPlatform.Foundation.Shortcut
import ArtPlatform.Agent.OpenShiftUpdater
import ArtPlatform.Agent.ChangeDetection
import ArtPlatform.ManagementPanel.ModuleVersions
import ArtPlatform.OpenShift.DeploymentPods
import ArtPlatform.Agent.OpenShiftInstaller
import ArtPlatform.Agent.ConfigMapOwnership
import ArtPlatform.ManagementPanel.ModuleOutcome
import ArtPlatform.ManagementPanel.LoadTestFlow
import ArtPlatform.Foundation.Turns
import ArtPlatform.Web.Stream
import ArtPlatform.Web.StreamsActivator
import ArtPlatform.Web.PlatformContext
import ArtPlatform.ManagementPanel.FileService
import ArtPlatform.Web.ChunkedRequest
import ArtPlatform.Web.FileTransfer
import ArtPlatform.Agent.ProjectTree
import ArtPlatform.Agent.ServiceUpdate
import ArtPlatform.Agent.NodePorts
import ArtPlatform.Foundation.LinkedMap
import ArtPlatform.Agent.ProjectInitialization
import ArtPlatform.Agent.ProjectChanges
import ArtPlatform.Foundation.Sweep
import ArtPlatform.ManagementPanel.ProjectDeletion
import ArtPlatform.ManagementPanel.DeletionAgents
import ArtPlatform.Foundation.Selection
import ArtPlatform.Foundation.LegacyMergeSort
import ArtPlatform.Foundation.StableOrder
import ArtPlatform.ManagementPanel.ModuleOrder
import ArtPlatform.ManagementPanel.ModuleFilter
import ArtPlatform.ManagementPanel.AssemblyFilter
import ArtPlatform.Foundation.UniqueIndex
import ArtPlatform.ManagementPanel.PanelAction
import ArtPlatform.ManagementPanel.PreparedConfigurationService
import ArtPlatform.ManagementPanel.PreparedConfigurationFilter
import ArtPlatform.ManagementPanel.UserService
import ArtPlatform.ManagementPanel.ExternalArtifacts
import ArtPlatform.ManagementPanel.AssemblyArtifacts
import ArtPlatform.OpenShift.DeploymentConfigurator
import ArtPlatform.Git.GitChanges
import ArtPlatform.Agent.GradleModules
import ArtPlatform.Agent.GradleBuilder
import ArtPlatform.Agent.InitializedVersions
import ArtPlatform.ManagementPanel.AutomationService
import ArtPlatform.Agent.ArtifactsUploader
import ArtPlatform.Web.ChunkPublisher
import ArtPlatform.Web.StreamDisposal
import ArtPlatform.Web.ManagedGrid
import ArtPlatform.Web.WidgetCache
import ArtPlatform.Web.SynchronizedActions
import ArtPlatform.Foundation.CallStack
import ArtPlatform.Web.Property
import ArtPlatform.Web.ManagedSearcher
import ArtPlatform.Web.SearcherHost
import ArtPlatform.Web.ManagedSelector
import ArtPlatform.Web.ManagedCollection
import ArtPlatform.Web.ModuleFiles
import ArtPlatform.Web.ModuleInstallation
import ArtPlatform.Web.ModuleUpdating
import ArtPlatform.Web.ModuleCloning
import ArtPlatform.Web.ManagedFileLoader
import ArtPlatform.KotlinScript.TextIntervals
import ArtPlatform.Web.LogDialog
import ArtPlatform.Web.FilteredCards
import ArtPlatform.Foundation.Replacement
import ArtPlatform.Linux.LinuxCommand
import ArtPlatform.Foundation.Regex
import ArtPlatform.Web.Regexps
import ArtPlatform.Web.PortField
import ArtPlatform.Web.ModuleConfigurationValidator
import ArtPlatform.Web.ArtifactGroups
import ArtPlatform.Web.ModulesInstallationDialog
import ArtPlatform.Foundation.Transducer
import ArtPlatform.Shell.Grammar
import ArtPlatform.Shell.Reader
import ArtPlatform.Linux.LinuxCommandBuilder
import ArtPlatform.Common.ChunkedFlow
import ArtPlatform.Common.Emitter
import ArtPlatform.Web.ArrayExtensions
import ArtPlatform.Foundation.Broadcast
import ArtPlatform.Foundation.BroadcastHistory
import ArtPlatform.Web.StreamDelivery
import ArtPlatform.ManagementPanel.RequestSecurity
import ArtPlatform.Web.OptionalWidget
import ArtPlatform.Web.ResourcesLoader
import ArtPlatform.Web.WidgetRendering
import ArtPlatform.Common.ReactiveBroker
import ArtPlatform.OpenShift.AgentManager
import ArtPlatform.OpenShift.AgentRuns
import ArtPlatform.OpenShift.AgentStarts
import ArtPlatform.ManagementPanel.LoadTestEndings
import ArtPlatform.Web.ClientClosing
import ArtPlatform.OpenShift.PodWaits
import ArtPlatform.Web.CredentialPages
import ArtPlatform.Web.ResourceDialogs
